import TradingControl.Execution.FillPublisher
import TradingControl.RegimeRisk

/-!
# From a decision to an order

The part of the engine that both execution paths share: validation, the guard on fallback decisions,
the pre-execution gates, Kelly sizing and the idempotency key, and then, under the symbol's lock,
the clamps against the position the broker holds.
-/

namespace TradingControl

open Effects Python Engine

/-! ## Configuration -/

/-- `settings` the engine reads, with their defaults. -/
structure Settings where
  brokerMode : String := "paper"
  alpacaPaper : Bool := true
  allowFallbackTrades : Bool := false
  maxFallbackOrderQty : ℚ := 1 / 100
  maxSymbolExposure : ℚ := 1
  maxOpenPositionQty : ℚ := 1
  noTradeWindowEnabled : Bool := false

/-- `BROKER_MODE.lower() == "paper" or ALPACA_PAPER`. -/
def Settings.simulated (settings : Settings) : Bool :=
  lower settings.brokerMode = "paper" || settings.alpacaPaper

/-- `min(MAX_SYMBOL_EXPOSURE, MAX_OPEN_POSITION_QTY)`. -/
def Settings.maxPosition (settings : Settings) : ℚ :=
  min settings.maxSymbolExposure settings.maxOpenPositionQty

/-- A running engine. -/
structure Config where
  settings : Settings := {}
  constants : Constants := defaultConstants
  /-- `round(·, 8)`. -/
  round8 : ℚ → ℚ := roundHalfEven 8
  /-- MD5 prefix of the score, type, price and quantity of a signal. -/
  signalHash : Scalar → Option String → Scalar → Scalar → String := fun _ _ _ _ => ""
  /-- UTC minute of an ISO timestamp, `none` where `fromisoformat` rejects it. -/
  utcMinute : String → Option String := some

/-! ## Fallback decisions -/

/-- `is_fallback`. -/
def Decision.isFallback (data : Decision) : Bool :=
  let reason := lower (orDefault data.reason "")
  let source := lower (orDefault data.source "")
  let primaryEdge := lower (orDefault data.primaryEdge "")
  data.llmSucceeded = some false || contains reason "fallback" || source = "fallback" ||
    startsWith primaryEdge "fallback:" || primaryEdge = "fallback" ||
    orDefault data.fallbackReason "" ≠ ""

/-- Verdict on a fallback order against the signed position it meets. -/
def fallbackExposureBlocked (settings : Settings) (side : String) (qty current : ℚ) : Bool :=
  let after := if side = "buy" then current + qty else current - qty
  if current < 0 ∧ 0 < after ∨ 0 < current ∧ after < 0 then true
  else if |after| ≤ |current| then false
  else settings.maxPosition < |after|

/-- The guard applies: a live engine has a fallback-flagged buy or sell in hand. -/
def fallbackGuarded (settings : Settings) (data : Decision) (side : String) : Bool :=
  (side = "buy" || side = "sell") && data.isFallback && !settings.simulated

/-- `_is_fallback_blocked`. -/
def isFallbackBlocked (config : Config) (parsed : ParsedDecision) (data : Decision) :
    Engine Bool :=
  let side := lower parsed.side
  if !fallbackGuarded config.settings data side then
    return false
  else if !config.settings.allowFallbackTrades then
    return true
  else if config.settings.maxFallbackOrderQty < parsed.qty then
    return true
  else do
    let position ← PaperBroker.getPosition parsed.symbol
    return fallbackExposureBlocked config.settings side parsed.qty (signedPositionQty position)

/-- `_parse_and_validate`; the two ids are drawn whether or not the decision carries its own. -/
def parseAndValidate (config : Config) (data : Decision) : Engine (Option ParsedDecision) := do
  let strategyId ← uuid4
  let traceId ← uuid4
  match parseDecisionFields strategyId traceId data with
  | .error _ => return none
  | .ok parsed =>
      if ← isFallbackBlocked config parsed data then return none else return some parsed

/-! ## Pre-execution gates -/

/-- `_is_market_open`. -/
def isMarketOpen (config : Config) (symbol : String) : Engine Bool :=
  if config.settings.simulated then return true else isSymbolOpen symbol

/-- `read_cached_macro_regime`: a miss or an error is the empty payload. -/
def readCachedMacroRegime (symbol : String) : Engine Value := do
  let benchmark := if contains symbol "/" then "BTC/USD" else "SPY"
  match ← (redisGet (.macroRegime benchmark)).attempt with
  | .ok (some payload) => return payload
  | _ => return .dict []

/-- Threshold of the execution gate; a risk-off regime raises it for buys. -/
def decisionThreshold (config : Config) (side symbol : String) : Engine ℚ := do
  let dbAvailable ← isDbAvailable
  let threshold :=
    config.constants
      (if dbAvailable then .executionDecisionThreshold else .executionDecisionThresholdMemory)
  if side = "buy" then do
    let payload ← readCachedMacroRegime symbol
    return RegimeRisk.executionThreshold (RegimeRisk.regimeOf payload) threshold true
  else
    return threshold

def noTradeWindowGate (config : Config) (side : String) : Engine (Option GateReason) :=
  if config.settings.noTradeWindowEnabled && side = "buy" then do
    if ← isWithinNoTradeWindow then return some .noTradeWindow else return none
  else
    return none

/-- In-flight gate; a Redis failure does not block. -/
def inFlightGate : Engine (Option GateReason) := do
  match ← (redisGet .inFlightOrder).attempt with
  | .ok (some flag) => if flag = "" then return none else return some .inFlight
  | _ => return none

/-- Regime filter on the volatility ratio. -/
def choppyRegimeGate (atrRegimeRatio : Option ℚ) : Option GateReason :=
  match atrRegimeRatio with
  | some ratio => if ratio < 1 then some (.choppyRegime ratio) else none
  | none => none

/-- `_check_cooling_off_gate`; exits are never gated. -/
def checkCoolingOffGate (side : String) : Engine (Option GateReason) :=
  if isNoOrderAction side || isSell side then
    return none
  else do
    match ← (redisGet .recentOutcomes).attempt with
    | .ok outcomes =>
        if isCoolingOff ((outcomes.getD []).take coolingOffWindow).reverse coolingOffDecay then
          return some .coolingOff
        else
          return none
    | .error _ => return none

/-- `_evaluate_pre_execution_gates`. -/
def evaluatePreExecutionGates (config : Config) (side symbol : String)
    (signalConfidence reasoningScore : ℚ) (atrRegimeRatio : Option ℚ) (absPctMove : ℚ) :
    Engine (Option GateReason) := do
  let marketOpen ← isMarketOpen config symbol
  let threshold ← decisionThreshold config side symbol
  let finalScore := computeExecutionScore signalConfidence reasoningScore
  match checkExecutionGate side finalScore threshold marketOpen with
  | some reason => return some reason
  | none =>
    match ← noTradeWindowGate config side with
    | some reason => return some reason
    | none =>
      match ← inFlightGate with
      | some reason => return some reason
      | none =>
        let confidence :=
          checkConfidenceGate signalConfidence side (config.constants .signalConfidenceMinGate)
        match confidence <|> choppyRegimeGate atrRegimeRatio <|>
            checkNetEvGate signalConfidence absPctMove slippagePctPerSide with
        | some reason => return some reason
        | none => checkCoolingOffGate side

/-! ## Sizing and the idempotency key -/

/-- `float(…)` of a field: `none` is the exception of a text that is no number. -/
def requireFloat : Option ℚ → Engine ℚ
  | some value => return value
  | none => .raise .valueError

/-- Quantity that a Kelly fraction of the cash buys, where it is positive. -/
def kellyQty (sizePct cash nominalQty price : ℚ) : ℚ :=
  if 0 < sizePct * cash / price then sizePct * cash / price else nominalQty

/-- `_apply_kelly_sizing`. -/
def applyKellySizing (data : Decision) (nominalQty price : ℚ) : Engine ℚ := do
  let sizePct ← requireFloat data.sizePct.toFloatOrZero
  if sizePct ≤ 0 ∨ price ≤ 0 then
    return nominalQty
  else
    match ← PaperBroker.getCash.attempt with
    | .ok cash => return kellyQty sizePct cash nominalQty price
    | .error _ => return nominalQty

/-- `_parse_timestamp`, down to the minute the key uses. -/
def parseTimestamp (config : Config) (data : Decision) : Engine String :=
  match data.timestamp with
  | none => utcNow
  | some raw =>
      match config.utcMinute raw with
      | some minute => return minute
      | none => .raise .valueError

/-- `_build_idempotency_key`. -/
def buildIdempotencyKey (config : Config) (strategyId symbol side minute : String)
    (data : Decision) : String :=
  strategyId ++ "_" ++ symbol ++ "_" ++ side ++ "_" ++ minute ++ "_" ++
    config.signalHash data.compositeScore data.signalType data.price data.qty

/-- A decision that passed every gate, sized and keyed. -/
structure Order where
  symbol : String
  side : String
  qty : ℚ
  price : ℚ
  strategyId : String
  traceId : String
  signalConfidence : ℚ
  idempotencyKey : String
deriving DecidableEq

/-- `float(_atr_raw) if _atr_raw not in (None, "") else None`. -/
def atrRegimeRatio (data : Decision) : Engine (Option ℚ) :=
  match data.atrRegimeRatio with
  | .absent => return none
  | field => do
      let ratio ← requireFloat field.toFloat
      return some ratio

/-- What both paths do with a decision before they look for duplicates. -/
def prepareOrder (config : Config) (data : Decision) : Engine (Option Order) := do
  match ← parseAndValidate config data with
  | none => return none
  | some parsed =>
    let (signalConfidence, reasoningScore) := extractDecisionScores data
    let atr ← atrRegimeRatio data
    let pct ← requireFloat data.pct.toFloatOrZero
    match ← evaluatePreExecutionGates config parsed.side parsed.symbol signalConfidence
        reasoningScore atr |pct| with
    | some _ => return none
    | none =>
      let qty ← applyKellySizing data parsed.qty parsed.price
      let minute ← parseTimestamp config data
      return some
        { symbol := parsed.symbol
          side := parsed.side
          qty := qty
          price := parsed.price
          strategyId := parsed.strategyId
          traceId := parsed.traceId
          signalConfidence := signalConfidence
          idempotencyKey :=
            buildIdempotencyKey config parsed.strategyId parsed.symbol parsed.side minute data }

/-! ## Admission under the lock -/

/-- What becomes of an order once the position is known. -/
inductive Admission where
  | rejectSell
  | rejectBuy
  | submit (qty : ℚ)
deriving DecidableEq

/-- Oversell clamp. -/
def clampSellToHolding (side : String) (qty : ℚ) (prior : Position) : ℚ :=
  if isSell side ∧ 0 < prior.qty ∧ prior.qty < qty then prior.qty else qty

/-- Unmatched-sell rejection, oversell clamp and overbuy clamp. -/
def admission (settings : Settings) (side : String) (qty : ℚ) (prior : Position) : Admission :=
  if rejectUnmatchedSell side prior then .rejectSell
  else if isBuy side then
    let capped := clampBuyToPositionLimit prior (clampSellToHolding side qty prior) settings.maxPosition
    if capped ≤ 0 then .rejectBuy else .submit capped
  else .submit (clampSellToHolding side qty prior)

section

variable {settings : Settings} {side : String} {sized qty : ℚ} {prior : Position}

/-- An admitted buy takes at most the room under the cap. -/
theorem admission_buy (buy : isBuy side = true)
    (admitted : admission settings side sized prior = .submit qty) :
    0 < qty ∧ qty = min sized (settings.maxPosition - signedPositionQty prior) := by
  have notSell : isSell side = false := by
    rw [← Bool.not_eq_true]
    intro sell
    simp [not_isBuy_of_isSell sell] at buy
  have unclamped : clampSellToHolding side sized prior = sized := by
    simp [clampSellToHolding, notSell]
  rw [admission] at admitted
  rw [if_neg (by simp [rejectUnmatchedSell, notSell]), if_pos buy, unclamped] at admitted
  dsimp only at admitted
  split at admitted
  · cases admitted
  · rename_i room
    rw [not_le] at room
    rw [← Admission.submit.inj admitted]
    refine ⟨room, ?_⟩
    rw [clampBuyToPositionLimit] at room ⊢
    split at room
    · exact absurd room (lt_irrefl _)
    · rename_i open_
      rw [if_neg open_]

/-- An admitted sell takes at most the open long position. -/
theorem admission_sell (sell : isSell side = true)
    (admitted : admission settings side sized prior = .submit qty) :
    (prior.priorSide = "long" ∧ 0 < prior.qty) ∧ qty = min sized prior.qty := by
  rw [admission] at admitted
  split at admitted
  · cases admitted
  rename_i matched
  have long := long_of_not_reject sell (by simpa using matched)
  refine ⟨long, ?_⟩
  rw [if_neg (by simp [not_isBuy_of_isSell sell])] at admitted
  rw [← Admission.submit.inj admitted, clampSellToHolding]
  by_cases exceeds : prior.qty < sized
  · rw [if_pos ⟨sell, long.2, exceeds⟩, min_eq_right exceeds.le]
  · rw [if_neg (by simp [exceeds]), min_eq_left (not_lt.mp exceeds)]

/-- No guard or clamp touches an order on any other side. -/
theorem admission_other (notBuy : isBuy side = false) (notSell : isSell side = false)
    (admitted : admission settings side sized prior = .submit qty) : qty = sized := by
  rw [admission] at admitted
  rw [if_neg (by simp [rejectUnmatchedSell, notSell]), if_neg (by simp [notBuy])] at admitted
  rw [← Admission.submit.inj admitted]
  simp [clampSellToHolding, notSell]

end

end TradingControl
