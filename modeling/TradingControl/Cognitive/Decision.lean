import Mathlib.Algebra.Order.Ring.Rat
import TradingControl.Cognitive.Events

/-!
# Configuration

The tunable behaviour of the loop: weights of the scored signals, thresholds of a decision and hard
risk limits.  Validation holds every value to its bounds.
-/

namespace TradingControl.Cognitive

open Python

/-- `WEIGHT_KEYS`. -/
def weightKeys : List String := ["news", "tech", "macro"]

/-- Inclusive bounds, with the text that Python prints for them. -/
structure Bounds where
  low : ℚ
  high : ℚ
  text : String

/-- `WEIGHT_BOUNDS`. -/
def weightBounds : Bounds := ⟨0, 1, "(0.0, 1.0)"⟩

/-- `BUY_THRESHOLD_BOUNDS`. -/
def buyThresholdBounds : Bounds := ⟨0, 95 / 100, "(0.0, 0.95)"⟩

/-- `SELL_THRESHOLD_BOUNDS`. -/
def sellThresholdBounds : Bounds := ⟨-95 / 100, 0, "(-0.95, 0.0)"⟩

/-- `MAX_POSITION_SIZE_BOUNDS`. -/
def maxPositionSizeBounds : Bounds := ⟨1 / 1000, 5 / 10, "(0.001, 0.5)"⟩

/-- `MAX_DAILY_LOSS_BOUNDS`. -/
def maxDailyLossBounds : Bounds := ⟨1 / 1000, 25 / 100, "(0.001, 0.25)"⟩

/-- `MAX_EXPOSURE_BOUNDS`. -/
def maxExposureBounds : Bounds := ⟨1 / 100, 1, "(0.01, 1.0)"⟩

structure CognitiveConfig where
  version : ℤ
  weights : Dict String ℚ
  buyThreshold : ℚ
  sellThreshold : ℚ
  maxPositionSizePct : ℚ
  maxDailyLossPct : ℚ
  maxExposurePct : ℚ
deriving DecidableEq

/-- `DEFAULT_CONFIG`. -/
def defaultConfig : CognitiveConfig where
  version := 1
  weights := [("news", 34 / 100), ("tech", 33 / 100), ("macro", 33 / 100)]
  buyThreshold := 15 / 100
  sellThreshold := -15 / 100
  maxPositionSizePct := 5 / 100
  maxDailyLossPct := 2 / 100
  maxExposurePct := 30 / 100

/-- `data.get(key) or {}` where it is read as a dictionary. -/
def subDict (data : Payload) (key : String) : Except Raised Payload :=
  match data.lookup key with
  | none => .ok []
  | some (.dict entries) => .ok entries
  | some value => if value.truthy then .error .attributeError else .ok []

/-- `float(data.get(key, default))`. -/
def floatField (runtime : Runtime) (data : Payload) (key : String) (default : ℚ) :
    Except Raised ℚ :=
  match data.lookup key with
  | none => .ok default
  | some value => runtime.toFloat value

/-- `int(data.get("version", 1))`. -/
def versionOf (runtime : Runtime) (data : Payload) : Except Raised ℤ :=
  match data.lookup "version" with
  | none => .ok 1
  | some value => runtime.toInt value

namespace CognitiveConfig

/-- `from_dict`. -/
def fromDict (runtime : Runtime) (data : Payload) : Except Raised CognitiveConfig := do
  let weightsIn ← subDict data "weights"
  let news ← floatField runtime weightsIn "news" (34 / 100)
  let tech ← floatField runtime weightsIn "tech" (33 / 100)
  let macroWeight ← floatField runtime weightsIn "macro" (33 / 100)
  let risk ← subDict data "risk"
  let version ← versionOf runtime data
  let buyThreshold ← floatField runtime data "buy_threshold" (15 / 100)
  let sellThreshold ← floatField runtime data "sell_threshold" (-15 / 100)
  let maxPositionSizePct ← floatField runtime risk "max_position_size_pct" (5 / 100)
  let maxDailyLossPct ← floatField runtime risk "max_daily_loss_pct" (2 / 100)
  let maxExposurePct ← floatField runtime risk "max_exposure_pct" (30 / 100)
  return {
    version := version
    weights := [("news", news), ("tech", tech), ("macro", macroWeight)]
    buyThreshold := buyThreshold
    sellThreshold := sellThreshold
    maxPositionSizePct := maxPositionSizePct
    maxDailyLossPct := maxDailyLossPct
    maxExposurePct := maxExposurePct }

/-- The risk limits as `to_dict` nests them. -/
def riskDict (config : CognitiveConfig) : Payload :=
  [("max_position_size_pct", .float config.maxPositionSizePct),
    ("max_daily_loss_pct", .float config.maxDailyLossPct),
    ("max_exposure_pct", .float config.maxExposurePct)]

/-- The weights as `to_dict` nests them. -/
def weightsDict (config : CognitiveConfig) : Payload :=
  config.weights.map fun (key, weight) => (key, .float weight)

/-- `to_dict`. -/
def toDict (config : CognitiveConfig) : Payload :=
  [("version", .int config.version), ("weights", .dict config.weightsDict),
    ("buy_threshold", .float config.buyThreshold), ("sell_threshold", .float config.sellThreshold),
    ("risk", .dict config.riskDict)]

end CognitiveConfig

/-! ## Validation -/

/-- The number is within bounds; an integer too large for a float raises. -/
def numberWithin (runtime : Runtime) (bounds : Bounds) (value : Value) : Except Raised Bool :=
  match runtime.toFloat value with
  | .ok numeric => .ok (decide (bounds.low ≤ numeric ∧ numeric ≤ bounds.high))
  | .error .overflowError => .error .overflowError
  | .error _ => .ok false

/-- `_in_bounds`. -/
def inBounds (runtime : Runtime) (value : Option Value) (bounds : Bounds) : Except Raised Bool :=
  match value with
  | none | some .none | some (.bool _) => .ok false
  | some value => numberWithin runtime bounds value

/-- `repr(data.get(key))`. -/
def reprField (runtime : Runtime) (data : Payload) (key : String) : String :=
  runtime.repr ((data.lookup key).getD .none)

def weightErrors (runtime : Runtime) (weights : Payload) : List String → Except Raised (List String)
  | [] => .ok []
  | key :: rest => do
      let own ← match weights.lookup key with
        | none => .ok ["weights." ++ key ++ " is missing"]
        | some value =>
            if ← inBounds runtime (some value) weightBounds then .ok []
            else .ok ["weights." ++ key ++ "=" ++ runtime.repr value ++ " outside " ++
              weightBounds.text]
      return own ++ (← weightErrors runtime weights rest)

def riskErrors (runtime : Runtime) (risk : Payload) :
    List (String × Bounds) → Except Raised (List String)
  | [] => .ok []
  | (key, bounds) :: rest => do
      let own := if ← inBounds runtime (risk.lookup key) bounds then []
        else ["risk." ++ key ++ "=" ++ reprField runtime risk key ++ " outside " ++ bounds.text]
      return own ++ (← riskErrors runtime risk rest)

def riskLimits : List (String × Bounds) :=
  [("max_position_size_pct", maxPositionSizeBounds), ("max_daily_loss_pct", maxDailyLossBounds),
    ("max_exposure_pct", maxExposureBounds)]

/-- Error of thresholds that are both in bounds and leave no band between them. -/
def crossErrors (runtime : Runtime) (data : Payload) : Except Raised (List String) := do
  if ← inBounds runtime (data.lookup "buy_threshold") buyThresholdBounds then
    if ← inBounds runtime (data.lookup "sell_threshold") sellThresholdBounds then
      let sell ← runtime.toFloat ((data.lookup "sell_threshold").getD .none)
      let buy ← runtime.toFloat ((data.lookup "buy_threshold").getD .none)
      return if sell ≥ buy then ["sell_threshold must be strictly below buy_threshold"] else []
  return []

def weightsErrors (runtime : Runtime) (data : Payload) : Except Raised (List String) :=
  match data.lookup "weights" with
  | some (.dict weights) => weightErrors runtime weights weightKeys
  | _ => .ok ["weights must be an object with news/tech/macro"]

def thresholdErrors (runtime : Runtime) (data : Payload) (key : String) (bounds : Bounds) :
    Except Raised (List String) := do
  return if ← inBounds runtime (data.lookup key) bounds then []
    else [key ++ " outside " ++ bounds.text]

def riskObjectErrors (runtime : Runtime) (data : Payload) : Except Raised (List String) :=
  match data.lookup "risk" with
  | some (.dict risk) => riskErrors runtime risk riskLimits
  | _ => .ok ["risk must be an object"]

/-- `validate_config_dict`. -/
def validateConfigDict (runtime : Runtime) : Value → Except Raised (List String)
  | .dict data => do
      let weights ← weightsErrors runtime data
      let buy ← thresholdErrors runtime data "buy_threshold" buyThresholdBounds
      let sell ← thresholdErrors runtime data "sell_threshold" sellThresholdBounds
      let cross ← crossErrors runtime data
      let risk ← riskObjectErrors runtime data
      return weights ++ buy ++ sell ++ cross ++ risk
  | _ => .ok ["config is not a JSON object"]

/-- `clamp_weight`. -/
def clampWeight (value : ℚ) : ℚ := max weightBounds.low (min weightBounds.high value)

end TradingControl.Cognitive

/-!
# Agents and their features

The specialists read the market and each states one fact.  The aggregation turns the facts into the
feature vector, which is all that the decision sees of them.
-/

namespace TradingControl.Cognitive

open Python

/-- `clamp` into the signed signal range. -/
def clamp (value : ℚ) : ℚ := max (-1) (min 1 value)

/-- `clamp01`. -/
def clamp01 (value : ℚ) : ℚ := max 0 (min 1 value)

/-- One bar of the market, with the closes up to it. -/
structure MarketView where
  symbol : String
  price : ℚ
  history : List ℚ
  newsSentiment : Option ℚ := none
  newsConfidence : ℚ := 0
  ts : String := ""

/-! ## Scorers -/

/-- `_returns`: bars after a price of zero are skipped. -/
def returns : List ℚ → List ℚ
  | previous :: current :: rest =>
      if previous ≠ 0 then (current - previous) / previous :: returns (current :: rest)
      else returns (current :: rest)
  | _ => []

/-- `TECH_WINDOW`. -/
def techWindow : ℕ := 10

/-- `MACRO_WINDOW`. -/
def macroWindow : ℕ := 60

/-- `RISK_WINDOW`. -/
def riskWindow : ℕ := 30

/-- `statistics.pstdev` of a series, zero for a single value. -/
def deviation (runtime : Runtime) (values : List ℚ) : ℚ :=
  if values.length > 1 then runtime.pstdev values else 0

/-- `technical_trend`: trend and confidence. -/
def technicalTrend (runtime : Runtime) (history : List ℚ) : ℚ × ℚ :=
  let rets := lastItems techWindow (returns history)
  if rets.isEmpty then (0, 0)
  else
    let mean := fmean rets
    let sd := deviation runtime rets
    let z := if sd > 1 / 10 ^ 9 then mean / sd
      else if mean ≠ 0 then (if mean > 0 then 3 else -3)
      else 0
    let trend := runtime.tanh z
    let sameDir : ℚ := if mean ≠ 0 then
        (rets.countP fun ret => decide (ret > 0) == decide (mean > 0) : ℕ) / (rets.length : ℚ)
      else 0
    (roundHalfEven 4 trend, roundHalfEven 4 (clamp01 (|trend| * sameDir)))

/-- `macro_regime`. -/
def macroRegime (runtime : Runtime) (history : List ℚ) : ℚ :=
  match lastItems macroWindow history with
  | first :: second :: rest =>
      if first = 0 then 0
      else
        let drift := ((second :: rest).getLastD second - first) / first
        roundHalfEven 4 (runtime.tanh (drift * 10))
  | _ => 0

/-- Largest drop from a running peak, as a fraction of the peak. -/
def maxDrawdown (start : ℚ) (values : List ℚ) : ℚ :=
  (values.foldl (fun (peak, worst) value =>
    let peak := max peak value
    (peak, if peak ≠ 0 then max worst ((peak - value) / peak) else worst)) (start, 0)).2

/-- `risk_assessment`: risk score and flags. -/
def riskAssessment (runtime : Runtime) (history : List ℚ) : ℚ × List String :=
  let rets := lastItems riskWindow (returns history)
  let windowPrices := lastItems riskWindow history
  let vol := deviation runtime rets
  let drawdown := maxDrawdown (windowPrices.headD 0) windowPrices
  let riskScore := clamp01 (vol * 25 + drawdown)
  let flags := (if vol > 2 / 100 then ["high_volatility"] else []) ++
    if drawdown > 10 / 100 then ["drawdown"] else []
  (roundHalfEven 4 riskScore, flags)

/-- `news_sentiment`: sentiment and confidence. -/
def newsSentiment (market : MarketView) : ℚ × ℚ :=
  match market.newsSentiment with
  | none => (0, 0)
  | some sentiment =>
      (roundHalfEven 4 (clamp sentiment), roundHalfEven 4 (clamp01 market.newsConfidence))

/-! ## Features -/

/-- `aggregate` of the signals, which name every field it reads. -/
def aggregate (news tech : ℚ × ℚ) (regime riskScore : ℚ) : Dict String ℚ :=
  [("news", roundHalfEven 6 (clamp (news.1 * news.2))),
    ("tech", roundHalfEven 6 (clamp (tech.1 * tech.2))),
    ("macro", roundHalfEven 6 (clamp regime)),
    ("risk", roundHalfEven 6 (clamp01 riskScore))]

/-- Signs of the features in the text of the reasoning agent. -/
def reasoningSummary (runtime : Runtime) (signals : Dict String ℚ) : String :=
  let signal key := (signals.lookup key).getD 0
  "news " ++ runtime.signedHundredths (signal "news") ++ ", tech " ++
    runtime.signedHundredths (signal "tech") ++ ", macro " ++
    runtime.signedHundredths (signal "macro") ++ "; risk " ++ runtime.hundredths (signal "risk")

/-! ## Specialists -/

/-- What the specialists of a registry answer at one call; a scorer may change from call to call. -/
structure Specialists where
  news : MarketView → ℚ × ℚ
  tech : MarketView → ℚ × ℚ
  regime : MarketView → ℚ
  risk : MarketView → ℚ × List String
  summary : Dict String ℚ → String

def defaultSpecialists (runtime : Runtime) : Specialists where
  news := newsSentiment
  tech market := technicalTrend runtime market.history
  regime market := macroRegime runtime market.history
  risk market := riskAssessment runtime market.history
  summary := reasoningSummary runtime

/-- Numbers as the values of a payload. -/
def floatDict (items : Dict String ℚ) : Payload := items.map fun (key, value) => (key, .float value)

namespace Specialists

/-- The feature vector of a bar. -/
def features (specialists : Specialists) (market : MarketView) : Dict String ℚ :=
  aggregate (specialists.news market) (specialists.tech market) (specialists.regime market)
    (specialists.risk market).1

def newsPayload (specialists : Specialists) (market : MarketView) : Payload :=
  [("type", .str EventType.newsSignal.value), ("sentiment", .float (specialists.news market).1),
    ("confidence", .float (specialists.news market).2)]

def techPayload (specialists : Specialists) (market : MarketView) : Payload :=
  [("type", .str EventType.techSignal.value), ("trend", .float (specialists.tech market).1),
    ("confidence", .float (specialists.tech market).2)]

def macroPayload (specialists : Specialists) (market : MarketView) : Payload :=
  [("type", .str EventType.macroSignal.value), ("regime", .float (specialists.regime market))]

def riskPayload (specialists : Specialists) (market : MarketView) : Payload :=
  [("type", .str EventType.riskSignal.value),
    ("risk_flags", .list ((specialists.risk market).2.map .str)),
    ("risk_score", .float (specialists.risk market).1)]

def reasoningPayload (specialists : Specialists) (signals : Dict String ℚ) : Payload :=
  [("type", .str EventType.reasoning.value), ("summary", .str (specialists.summary signals)),
    ("signals_summary", .dict (floatDict signals))]

/-- What the agents emit for a bar, in the order of `step`. -/
def messages (specialists : Specialists) (market : MarketView) (traceId : String) :
    List Message :=
  let message (kind : EventType) (payload : Payload) (source : String) : Message :=
    { kind, payload, traceId, source, ts := market.ts }
  let features := specialists.features market
  [message .newsSignal (specialists.newsPayload market) "news_agent",
    message .techSignal (specialists.techPayload market) "technical_agent",
    message .macroSignal (specialists.macroPayload market) "macro_agent",
    message .riskSignal (specialists.riskPayload market) "risk_agent",
    message .features (("type", .str EventType.features.value) :: floatDict features) "aggregator",
    message .reasoning (specialists.reasoningPayload features) "reasoning_agent"]

end Specialists

end TradingControl.Cognitive

/-!
# Decision, risk gate and execution

The decision is a weighted sum of the features against two thresholds.  The gate holds a trade to
the hard limits of the configuration, and the execution sizes what the gate lets through.
-/

namespace TradingControl.Cognitive

open Python

/-! ## Decision -/

structure Decision where
  action : String
  score : ℚ
  /-- Contribution of each signal. -/
  breakdown : Dict String ℚ
  buyThreshold : ℚ
  sellThreshold : ℚ

/-- `as_dict`. -/
def Decision.asDict (decision : Decision) : Payload :=
  [("type", .str EventType.decision.value), ("action", .str decision.action),
    ("score", .float decision.score), ("breakdown", .dict (floatDict decision.breakdown)),
    ("buy_threshold", .float decision.buyThreshold),
    ("sell_threshold", .float decision.sellThreshold)]

/-- `decide`. -/
def decideAction (features : Dict String ℚ) (config : CognitiveConfig) : Decision :=
  let breakdown := weightKeys.map fun key =>
    (key, roundHalfEven 6 ((features.lookup key).getD 0 * (config.weights.lookup key).getD 0))
  let score := roundHalfEven 6 (breakdown.map Prod.snd).sum
  { action := if score > config.buyThreshold then "buy"
      else if score < config.sellThreshold then "sell" else "hold"
    score
    breakdown
    buyThreshold := config.buyThreshold
    sellThreshold := config.sellThreshold }

/-! ## Risk gate -/

structure RiskGate where
  allowed : Bool
  blocks : List String
  requestedPositionPct : ℚ

/-- `as_dict`. -/
def RiskGate.asDict (gate : RiskGate) : Payload :=
  [("type", .str EventType.riskGate.value), ("allowed", .bool gate.allowed),
    ("blocks", .list (gate.blocks.map .str)),
    ("requested_position_pct", .float gate.requestedPositionPct)]

/-- The action is a trade. -/
def Decision.isTrade (decision : Decision) : Bool :=
  decision.action = "buy" || decision.action = "sell"

/-- Hard limits that a trade violates. -/
def riskBlocks (config : CognitiveConfig) (requestedPositionPct currentExposurePct dayPnlPct : ℚ) :
    List String :=
  (if requestedPositionPct > config.maxPositionSizePct then ["max_position_size"] else []) ++
  (if currentExposurePct + requestedPositionPct > config.maxExposurePct then ["max_exposure"]
    else []) ++
  if dayPnlPct ≤ -config.maxDailyLossPct then ["max_daily_loss"] else []

/-- `evaluate_risk`. -/
def evaluateRisk (decision : Decision) (config : CognitiveConfig)
    (requestedPositionPct currentExposurePct dayPnlPct : ℚ) : RiskGate :=
  let blocks := if decision.isTrade then
      riskBlocks config requestedPositionPct currentExposurePct dayPnlPct
    else []
  { allowed := decision.isTrade && blocks.isEmpty, blocks, requestedPositionPct }

/-- The trade keeps to the hard limits of the configuration. -/
structure WithinLimits (config : CognitiveConfig)
    (positionPct currentExposurePct dayPnlPct : ℚ) : Prop where
  position : positionPct ≤ config.maxPositionSizePct
  exposure : currentExposurePct + positionPct ≤ config.maxExposurePct
  dailyLoss : -config.maxDailyLossPct < dayPnlPct

/-- The gate lets exactly the trades within the limits through. -/
theorem evaluateRisk_allowed_iff (decision : Decision) (config : CognitiveConfig)
    (positionPct currentExposurePct dayPnlPct : ℚ) :
    (evaluateRisk decision config positionPct currentExposurePct dayPnlPct).allowed = true ↔
      decision.isTrade = true ∧ WithinLimits config positionPct currentExposurePct dayPnlPct := by
  have limits : riskBlocks config positionPct currentExposurePct dayPnlPct = [] ↔
      WithinLimits config positionPct currentExposurePct dayPnlPct := by
    rw [riskBlocks]
    constructor
    · intro none
      rw [List.append_eq_nil_iff, List.append_eq_nil_iff] at none
      obtain ⟨⟨position, exposure⟩, dailyLoss⟩ := none
      refine ⟨?_, ?_, ?_⟩
      · by_contra past
        rw [if_pos (not_le.mp past)] at position
        cases position
      · by_contra past
        rw [if_pos (not_le.mp past)] at exposure
        cases exposure
      · by_contra past
        rw [if_pos (not_lt.mp past)] at dailyLoss
        cases dailyLoss
    · rintro ⟨position, exposure, dailyLoss⟩
      rw [if_neg (not_lt.mpr position), if_neg (not_lt.mpr exposure),
        if_neg (not_le.mpr dailyLoss)]
      rfl
  rw [evaluateRisk]
  cases trade : decision.isTrade with
  | false => simp
  | true => simp [limits]

/-! ## Execution -/

structure Execution where
  symbol : String
  side : String
  qty : ℚ
  price : ℚ
  notional : ℚ
  status : String

/-- `as_dict`. -/
def Execution.asDict (execution : Execution) : Payload :=
  [("type", .str EventType.execution.value), ("symbol", .str execution.symbol),
    ("side", .str execution.side), ("qty", .float execution.qty),
    ("price", .float execution.price), ("notional", .float execution.notional),
    ("status", .str execution.status)]

/-- `execute`. -/
def execute (decision : Decision) (gate : RiskGate) (symbol : String) (price equity : ℚ) :
    Execution :=
  if !gate.allowed || decide (price ≤ 0) then
    { symbol, price, side := decision.action, qty := 0, notional := 0, status := "skipped" }
  else
    let notional := equity * gate.requestedPositionPct
    { symbol, price, side := decision.action, qty := roundHalfEven 8 (notional / price)
      notional := roundHalfEven 2 notional, status := "filled" }

/-- An order is filled only through an open gate. -/
theorem allowed_of_filled {decision : Decision} {gate : RiskGate} {symbol : String}
    {price equity : ℚ} (filled : (execute decision gate symbol price equity).status = "filled") :
    gate.allowed = true := by
  rw [execute] at filled
  split at filled
  · simp at filled
  · next opened => simpa using (Bool.or_eq_false_iff.mp (Bool.eq_false_of_not_eq_true opened)).1

end TradingControl.Cognitive
