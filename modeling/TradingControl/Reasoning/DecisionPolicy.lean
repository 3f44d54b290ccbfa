import TradingControl.Python.Operators
import TradingControl.RegimeRisk

/-!
# The deterministic policy

The data plane's decision on a signal: a weighted blend of directional features, cut at thresholds.
A field that is no number makes it raise, whatever its docstring says.
-/

namespace TradingControl.Reasoning

open Python

/-- Entries of a signal, a context or a decision. -/
abbrev Payload := Dict String Value

/-- `PolicyParams`. -/
structure PolicyParams where
  buyThreshold : ℚ := 15 / 100
  sellThreshold : ℚ := 15 / 100
  minConfidence : ℚ := 20 / 100
  wMomentum : ℚ := 50 / 100
  wSentiment : ℚ := 20 / 100
  wMacro : ℚ := 20 / 100
  wImbalance : ℚ := 10 / 100
  baseSizePct : ℚ := 2 / 100
  stopAtrX : ℚ := 15 / 10
  rrRatio : ℚ := 2
  directionalBias : ℚ := 0

/-- `_clamp`; what is no number goes to the upper bound. -/
def clamp (value : Number) (low high : ℚ) : ℚ :=
  match value with
  | .finite value => max low (min high value)
  | .nonFinite .negativeInfinity => low
  | .nonFinite _ => max low high

/-- `_direction_sign`, with its label. -/
def directionSign (interpreter : Interpreter) (data : Payload) : Except Raised (ℚ × String) := do
  let raw := lower (interpreter.str (Value.orElse (data.lookup "direction")
    (Value.orElse (data.lookup "signal") (Value.orElse (data.lookup "action") (.str "")))))
  if raw ∈ ["bullish", "buy", "long"] then
    return (1, raw)
  else if raw ∈ ["bearish", "sell", "short"] then
    return (-1, raw)
  else
    let pct ← interpreter.floatOr (data.lookup "pct") 0
    if Number.lt (.finite 0) pct then return (1, "pct " ++ interpreter.signedNumber pct ++ "%")
    else if pct.lt (.finite 0) then return (-1, "pct " ++ interpreter.signedNumber pct ++ "%")
    else return (0, "flat")

/-- `_macro_sign`. -/
def macroSign (interpreter : Interpreter) (context : Payload) : Except Raised ℚ := do
  let macroRegime ← (Value.orElse (context.lookup "macro_regime") (.dict [])).entries
  let regime :=
    lower (interpreter.str (Value.orElse (macroRegime.lookup "regime") (.str "")))
  return if regime = "risk_on" then 1 else if regime = "risk_off" then -1 else 0

/-- `float((context.get(key) or {}).get(field) or 0.0)`, clamped to the feature range. -/
def feature (interpreter : Interpreter) (context : Payload) (key field : String) :
    Except Raised ℚ := do
  let entries ← (Value.orElse (context.lookup key) (.dict [])).entries
  return clamp (← interpreter.floatOr (entries.lookup field) 0) (-1) 1

/-- What the policy does, and why. -/
def policyAction (interpreter : Interpreter) (params : PolicyParams)
    (confidence score buyCut longFloor : ℚ) : String × String :=
  let signed := interpreter.signedHundredths
  let plain := interpreter.hundredths
  let scored := "score " ++ interpreter.signedThousandths score
  if confidence < params.minConfidence then
    ("hold", "confidence " ++ plain confidence ++ " < " ++ plain params.minConfidence ++
      " — insufficient conviction")
  else if buyCut ≤ score ∧ confidence < longFloor then
    ("hold", "risk-off regime: long confidence " ++ plain confidence ++ " < " ++ plain longFloor ++
      " — marginal long rejected in a bearish market")
  else if buyCut ≤ score then
    ("buy", scored ++ " ≥ buy_threshold " ++ signed buyCut)
  else if score ≤ -params.sellThreshold then
    ("sell", scored ++ " ≤ -sell_threshold " ++ signed (-params.sellThreshold))
  else
    ("hold", scored ++ " inside [-" ++ plain params.sellThreshold ++ ", " ++ plain buyCut ++ "]")

/-- `decide_policy`. -/
def decidePolicy (interpreter : Interpreter) (data context : Payload) (params : PolicyParams) :
    Except Raised Payload := do
  let (momentum, momentumLabel) ← directionSign interpreter data
  let sentiment ← feature interpreter context "news_sentiment" "sentiment"
  let macroBias ← macroSign interpreter context
  let imbalance ← feature interpreter context "order_book" "imbalance"
  let confidence := clamp (← interpreter.floatOr (data.lookup "composite_score") 0) 0 1
  let blended := params.wMomentum * momentum + params.wSentiment * sentiment +
    params.wMacro * macroBias + params.wImbalance * imbalance
  let score := roundHalfEven 4 (clamp (.finite (blended + params.directionalBias)) (-1) 1)
  let regime := RegimeRisk.regimeOf ((context.lookup "macro_regime").getD .none)
  let buyCut := RegimeRisk.buyThreshold regime params.buyThreshold momentum
  let longFloor := RegimeRisk.minConfidence regime params.minConfidence true
  let riskFactors :=
    ["momentum " ++ interpreter.signedWhole momentum ++ " (" ++ momentumLabel ++ ")",
      "sentiment " ++ interpreter.signedHundredths sentiment,
      "macro " ++ interpreter.signedWhole macroBias,
      "imbalance " ++ interpreter.signedHundredths imbalance,
      "score " ++ interpreter.signedThousandths score,
      "confidence " ++ interpreter.hundredths confidence] ++
    (if params.directionalBias ≠ 0 then
      ["directional_bias " ++ interpreter.signedHundredths params.directionalBias] else []) ++
    (if buyCut ≠ params.buyThreshold then
      ["risk_on_buy_cut " ++ interpreter.signedHundredths buyCut] else [])
  let (action, why) := policyAction interpreter params confidence score buyCut longFloor
  let sizePct := roundHalfEven 4
    (clamp (.finite (params.baseSizePct * confidence)) (5 / 1000) params.baseSizePct)
  return [("action", .str action), ("confidence", .float (roundHalfEven 4 confidence)),
    ("primary_edge", .str "policy:deterministic"),
    ("reasoning", .str ("Deterministic policy: " ++ why ++ ".")),
    ("risk_factors", .list (riskFactors.map .str)), ("size_pct", .float sizePct),
    ("stop_atr_x", .float params.stopAtrX), ("rr_ratio", .float params.rrRatio)]

end TradingControl.Reasoning
