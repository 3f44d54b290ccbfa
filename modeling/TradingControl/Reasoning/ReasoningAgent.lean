import TradingControl.Execution.DecisionUtils
import TradingControl.Reasoning.DecisionPolicy

/-!
# The reasoning agent

From a signal to the advisory decision on the `decisions` stream: a model, the policy or a fallback
decides, a second call may criticise, the risk hierarchy may downgrade, and what is left is scaled,
sized and published.
-/

namespace TradingControl.Reasoning

open Python

/-- `settings` the agent reads, with their defaults. -/
structure AgentSettings where
  decisionMode : String := "llm"
  llmFallbackMode : String := "reject_signal"
  dailyTokenBudget : ℤ := 5000000
  selfCritiqueEnabled : Bool := false
  trustWeightingEnabled : Bool := false

/-- A running agent. -/
structure Agent where
  interpreter : Interpreter
  settings : AgentSettings := {}
  constants : Constants := defaultConstants
  /-- Overrides are kept only inside their bounds. -/
  within : ∀ parameter, WithinBounds parameter (constants parameter)
  policyParams : PolicyParams := {}
  /-- `active_model_label()`. -/
  activeModelLabel : String := ""

/-! ## Replies of a model -/

/-- What a model answered: an object, or a text that should hold one. -/
inductive Completion where
  | object (reply : Payload)
  | text (raw : String)

/-- A call of a model under its time limit. -/
inductive LlmCall where
  | answered (completion : Completion) (costUsd : Number) (modelLabel : Option String)
  | timedOut
  | raised (error : String)

/-- The text without its language line. -/
def dropLanguage (cleaned : String) : String :=
  let (first, rest) := cleaned.toList.span (· ≠ '\n')
  match rest with
  | [] => cleaned
  | _ :: rest =>
      if strip (String.ofList first) ∈ ["json", "JSON", ""] then String.ofList rest else cleaned

/-- The JSON text inside a code fence. -/
def unfence (raw : String) : String :=
  let cleaned := strip raw
  if startsWith cleaned "```" then
    let body := dropLanguage (String.ofList (cleaned.toList.drop 3))
    if endsWith (rstrip body) "```" then
      strip (String.ofList ((rstrip body).toList.take ((rstrip body).length - 3)))
    else body
  else cleaned

/-- Stands in for a reply that is no JSON object. -/
def invalidReply : Payload :=
  [("action", .str "hold"), ("confidence", .float 0), ("primary_edge", .str "invalid_json"),
    ("risk_factors", .list [.str "invalid_llm_json"]), ("size_pct", .float (1 / 100)),
    ("stop_atr_x", .float (15 / 10)), ("rr_ratio", .float 2)]

namespace Agent

variable (agent : Agent)

/-- `json.loads` of a reply. -/
def loads (raw : String) : Except Raised Value :=
  Json.loads agent.interpreter.toRuntime agent.interpreter.depth (unfence raw)

/-- What `_call_llm` makes of a reply. -/
def readReply : Completion → Except Raised Payload
  | .object reply => .ok reply
  | .text raw =>
      match agent.loads raw with
      | .ok (.dict reply) => .ok reply
      | .ok _ | .error .jsonDecodeError => .ok invalidReply
      | .error error => .error error

/-! ## Decisions without a model -/

/-- `d.update(others)`. -/
def update (decision others : Payload) : Payload :=
  others.foldl (fun held entry => Dict.set entry.1 entry.2 held) decision

/-- Trace, cost and origin of a decision that no model made. -/
def provenance (traceId : String) (isFallback : Bool) : Payload :=
  [("latency_ms", .int 0), ("cost_usd", .float 0), ("trace_id", .str traceId),
    ("fallback", .bool isFallback)]

/-- The policy's decision as a fallback, with the reason added to its risk factors. -/
def policyFallback (data context : Payload) (traceId reason primaryEdge : String) :
    Except Raised Payload := do
  let decision ← decidePolicy agent.interpreter data context agent.policyParams
  let riskFactors ← ((decision.lookup "risk_factors").getD (.list [])).items
  let marked := Dict.set "primary_edge" (.str primaryEdge)
    (Dict.set "risk_factors" (.list (riskFactors ++ [.str reason])) decision)
  return update marked (provenance traceId true)

/-- Direction that a signal suggests when it names none itself. -/
def directionAction (data : Payload) : Except Raised String := do
  let direction :=
    lower (agent.interpreter.str (Value.orElse (data.lookup "direction") (.str "")))
  if direction ∈ ["bullish", "buy", "long"] then return "buy"
  else if direction ∈ ["bearish", "sell", "short"] then return "sell"
  else
    let pct ← agent.interpreter.floatOr (data.lookup "pct") 0
    return if Number.lt (.finite 0) pct then "buy"
      else if pct.lt (.finite 0) then "sell" else "hold"

/-- Action of the signal itself. -/
def baseAction (data : Payload) : Except Raised String := do
  let named := lower (agent.interpreter.str (Value.orElse (data.lookup "action")
    (Value.orElse (data.lookup "signal") (.str "hold"))))
  if named ∈ ["none", "", "hold"] then agent.directionAction data else return named

/-- Actions a decision may have. -/
def validActions : List String := ["buy", "sell", "hold", "reject"]

/-- Action of a fallback that neither rejects nor asks the policy. -/
def reflectedAction (reflection : Value) (base : String) : Except Raised String := do
  let default := if base ∈ ["none", ""] then "hold" else base
  let action ←
    if reflection.truthy then do
      let entries ← reflection.entries
      pure ((entries.lookup "action").getD (.str base))
    else pure (.str base)
  match action with
  | .str text => return if text ∈ validActions then text else default
  | .list _ | .dict _ => .error .typeError
  | _ => return default

/-- Action of `_apply_fallback`. -/
def fallbackAction (data : Payload) (reflection : Value) : Except Raised String := do
  let base ← agent.baseAction data
  if agent.settings.llmFallbackMode = "reject_signal" then return "reject"
  else if agent.settings.llmFallbackMode = "use_last_reflection" then
    reflectedAction reflection base
  else return if base ∈ ["none", ""] then "hold" else base

/-- `_apply_fallback`. -/
def applyFallback (data context : Payload) (traceId reason : String) (reflection : Value) :
    Except Raised Payload :=
  if agent.settings.llmFallbackMode = "local_policy" then
    agent.policyFallback data context traceId reason "fallback:local_policy"
  else do
    let float := agent.interpreter.floatOr
    let compositeScore ← float (data.lookup "composite_score") 0
    let action ← agent.fallbackAction data reflection
    let sizePct ← float (data.lookup "size_pct") (1 / 100)
    let stopAtrX ← float (data.lookup "stop_atr_x") (15 / 10)
    let rrRatio ← float (data.lookup "rr_ratio") 2
    return [("action", .str action),
      ("confidence", ((compositeScore.max (.finite (1 / 10))).round 4).toValue),
      ("primary_edge", .str ("fallback:" ++ agent.settings.llmFallbackMode)),
      ("risk_factors", .list [.str reason]),
      ("size_pct", ((sizePct.max (.finite (1 / 100))).round 4).toValue),
      ("stop_atr_x", stopAtrX.toValue), ("rr_ratio", rrRatio.toValue)] ++ provenance traceId true

/-- `_degrade`. -/
def degrade (data context : Payload) (traceId reason : String) (reflection : Value) :
    Except Raised Payload :=
  if agent.settings.decisionMode = "hybrid" then
    agent.policyFallback data context traceId reason ("hybrid_fallback:" ++ reason)
  else
    agent.applyFallback data context traceId reason reflection

/-! ## Routing -/

/-- A decision with its cost; the reason is set when no model could answer. -/
structure Produced where
  summary : Payload
  costUsd : Number
  fallbackReason : Option String
  modelLabel : Option String

/-- A fallback decision. -/
def degraded (data context : Payload) (traceId reason : String) (reflection : Value) :
    Except Raised Produced := do
  return ⟨← agent.degrade data context traceId reason reflection, .finite 0, some reason, none⟩

/-- `_produce_decision`. -/
def produceDecision (data context : Payload) (traceId : String) (budgetUsed : ℤ)
    (reflection : Value) (call : LlmCall) : Except Raised Produced :=
  if agent.settings.decisionMode = "policy" then do
    let decision ← decidePolicy agent.interpreter data context agent.policyParams
    return ⟨update decision (provenance traceId false), .finite 0, none, some "policy"⟩
  else if agent.settings.dailyTokenBudget ≤ budgetUsed then
    agent.degraded data context traceId "budget_exceeded" reflection
  else
    match call with
    | .timedOut => agent.degraded data context traceId "llm_timeout" reflection
    | .raised error => agent.degraded data context traceId error reflection
    | .answered completion costUsd modelLabel =>
        match agent.readReply completion with
        | .ok reply => .ok ⟨reply, costUsd, none, modelLabel⟩
        | .error error =>
            agent.degraded data context traceId (agent.interpreter.errorText error) reflection

/-! ## Self-critique -/

/-- `critique.get(key) or decision[key']`. -/
def recommended (critique decision : Payload) (key held : String) : Except Raised Value :=
  match critique.lookup key with
  | some value => if value.truthy then .ok value else required (decision.lookup held)
  | none => required (decision.lookup held)
where
  required : Option Value → Except Raised Value
    | some value => .ok value
    | none => .error .keyError

/-- The decision with what its critique recommends, when the critique finds it unjustified. -/
def refine (decision : Payload) (critique : Value) : Except Raised Payload := do
  let critique ← critique.entries
  if ((critique.lookup "justified").getD (.bool true)).truthy then
    return decision
  else
    let action ← recommended critique decision "recommended_action" "action"
    let confidence ← agent.interpreter.float
      (← recommended critique decision "recommended_confidence" "confidence")
    let held := Value.orElse (decision.lookup "risk_factors") (.list [])
    let riskFactors ← held.items
    let concerns ← ((critique.lookup "concerns").getD (.list [])).items
    let fresh ← concerns.filterM fun concern => return !(← held.holds concern)
    return update decision
      [("action", .str (lower (agent.interpreter.str action))),
        ("confidence", (confidence.round 4).toValue),
        ("risk_factors", .list (riskFactors ++ fresh))]

/-- `_self_critique` under its time limit; whatever goes wrong leaves the decision as it was. -/
def selfCritique (decision : Payload) : LlmCall → Payload × Number
  | .answered (.text raw) costUsd _ =>
      match agent.loads raw >>= agent.refine decision with
      | .ok refined => (refined, costUsd)
      | .error _ => (decision, .finite 0)
  | _ => (decision, .finite 0)

/-- A model's buy or sell of high confidence is criticised. -/
def critiqued (produced : Produced) (confidence : Number) : Bool :=
  agent.settings.selfCritiqueEnabled && agent.settings.decisionMode ≠ "policy" &&
    produced.fallbackReason.isNone &&
    !isNoOrderAction (lower (agent.interpreter.str
      ((produced.summary.lookup "action").getD (.str "")))) &&
    Number.le (.finite (7 / 10)) confidence

/-- The decision after the self-critique, if there is one, and what it cost. -/
def reviewed (produced : Produced) (critique : LlmCall) : Except Raised (Payload × Number) := do
  let confidence ← agent.interpreter.floatOr (produced.summary.lookup "confidence") 0
  if agent.critiqued produced confidence then
    let (summary, costUsd) := agent.selfCritique produced.summary critique
    return (summary, produced.costUsd.add costUsd)
  else
    return (produced.summary, produced.costUsd)

/-! ## Risk hierarchy -/

/-- The first entry of the largest weight. -/
def dominant : Dict String Number → Option (String × Number)
  | [] => none
  | first :: rest =>
      some (rest.foldl (fun best entry => if best.2.lt entry.2 then entry else best) first)

def numericWeights (weights : Value) : Except Raised (Dict String Number) := do
  (← weights.entries).mapM fun (entry : String × Value) =>
    return (entry.1, ← agent.interpreter.float entry.2)

/-- Factor of the largest weight; `none` where the weights are no numbers. -/
def dominantFactor (weights : Value) : Option String :=
  match agent.numericWeights weights with
  | .ok weights => (dominant weights).map Prod.fst
  | .error _ => none

/-- `_ic_aligns`. -/
def icAligns (direction : String) (icWeights : Value) (decision : Payload) : Except Raised Bool :=
  if icWeights.truthy ∧ agent.dominantFactor icWeights = some "composite_score" then do
    let score ← agent.interpreter.float (Value.orElse (decision.lookup "composite_score")
      (Value.orElse (decision.lookup "confidence") (.float 0)))
    if Number.lt (.finite (5 / 10)) score then return direction ∈ ["buy", "long"]
    else return direction ∈ ["sell", "hold", "short", "flat"]
  else
    return true

/-- Why a decision is downgraded, in the order of the checks. -/
inductive Downgrade where
  | noOpenPosition
  | maxDrawdownExceeded
  | icMisalignment
  | lowConsensus
deriving DecidableEq

/-- The decision downgraded to `hold`, with a risk factor it may have already. -/
def downgrade (decision : Payload) (riskFactors : List Value) (factor : String)
    (others : Payload) : Payload :=
  let marked :=
    if riskFactors.any (Value.isText factor) then riskFactors else riskFactors ++ [.str factor]
  update decision (("action", .str "hold") :: others ++ [("risk_factors", .list marked)])

def judgedAction (decision : Payload) : String :=
  lower (agent.interpreter.str ((decision.lookup "action").getD (.str "hold")))

/-- First check of the hierarchy that a decision fails. -/
def riskVerdict (decision context : Payload) : Except Raised (Option Downgrade) := do
  let openLongQty ← agent.interpreter.floatOr (context.lookup "open_position_qty") 0
  if agent.judgedAction decision = "sell" ∧ openLongQty.le (.finite 0) then
    return some .noOpenPosition
  else
    let riskState ← ((context.lookup "risk_state").getD (.dict [])).entries
    let drawdown ← agent.interpreter.floatOr (riskState.lookup "drawdown") 0
    if drawdown.le (.finite (-15 / 100)) then
      return some .maxDrawdownExceeded
    else if !(← agent.icAligns (agent.judgedAction decision)
        ((context.lookup "ic_weights").getD (.dict [])) decision) then
      return some .icMisalignment
    else
      let agreementRatio ← agent.interpreter.floatOr (decision.lookup "agreement_ratio") 1
      return if agreementRatio.lt (.finite (5 / 10)) then some .lowConsensus else none

/-- `_apply_risk_hierarchy`. -/
def applyRiskHierarchy (decision context : Payload) : Except Raised Payload := do
  let riskFactors ← (Value.orElse (decision.lookup "risk_factors") (.list [])).items
  match ← agent.riskVerdict decision context with
  | none => return decision
  | some .noOpenPosition =>
      return downgrade decision riskFactors "NO_OPEN_POSITION"
        [("downgrade_reason", .str "sell_without_open_long")]
  | some .maxDrawdownExceeded =>
      return downgrade decision riskFactors "MAX_DRAWDOWN_EXCEEDED" [("confidence", .float 0)]
  | some .icMisalignment =>
      let confidence ← agent.interpreter.floatOr (decision.lookup "confidence") 0
      return downgrade decision riskFactors "IC_MISALIGNMENT"
        [("confidence", ((confidence.mul (.finite (3 / 10))).round 4).toValue)]
  | some .lowConsensus => return downgrade decision riskFactors "LOW_CONSENSUS" []

/-! ## Scaling and sizing -/

/-- `_get_signal_weight_scale`; a key that is missing or cannot be read leaves the weights alone. -/
def signalWeightScale (raw : Option String) : Number :=
  match raw.bind agent.interpreter.parseNumber with
  | none => .finite 1
  | some scale => if scale.le (.finite 0) || Number.lt (.finite 1) scale then .finite 1 else scale

/-- `_get_agent_trust`, between `AGENT_TRUST_MIN` and `AGENT_TRUST_MAX`. -/
def agentTrust (raw : Option String) : Number :=
  match raw.bind agent.interpreter.parseNumber with
  | none => .finite 1
  | some trust => (trust.max (.finite (5 / 10))).min (.finite (125 / 100))

/-- `_apply_trust_weighting`. -/
def applyTrustWeighting (weightScale trust : Number) : Number :=
  (weightScale.mul trust).min (.finite (125 / 100))

def weightScale (scale trust : Option String) : Number :=
  if agent.settings.trustWeightingEnabled then
    applyTrustWeighting (agent.signalWeightScale scale) (agent.agentTrust trust)
  else
    agent.signalWeightScale scale

/-- `compute_kelly_size`. -/
def computeKellySize (winProb winFraction lossFraction : Number) (kellyScale maxRiskPct : ℚ) :
    Except Raised Number := do
  if winFraction.le (.finite 0) || lossFraction.le (.finite 0) || winProb.le (.finite 0) then
    return .finite 0
  else
    let b ← winFraction.div lossFraction
    let fullKelly ← ((winProb.mul b).sub (Number.sub (.finite 1) winProb)).div b
    if fullKelly.le (.finite 0) then return .finite 0
    else return ((fullKelly.mul (.finite kellyScale)).min (.finite maxRiskPct)).round 6

/-- `compute_dynamic_position_size`. -/
def computeDynamicPositionSize (confidence : Number) (stopLossPct : ℚ) (takeProfitPct : Number)
    (kellyScale maxRiskPct : ℚ) : Except Raised Number :=
  if confidence.le (.finite 0) ∨ stopLossPct ≤ 0 then return .finite 0
  else
    computeKellySize confidence (takeProfitPct.max (.finite (stopLossPct * 2)))
      (.finite stopLossPct) kellyScale maxRiskPct

/-- Reward to risk of a decision, at least `MIN_RR_RATIO`. -/
def rrRatio (summary : Payload) : Except Raised Number := do
  return (← agent.interpreter.floatOr (summary.lookup "rr_ratio") minRrRatio).max
    (.finite minRrRatio)

/-- `_compute_kelly_position_size`. -/
def computeKellyPositionSize (summary : Payload) (macroRegime : Value) (action : String) :
    Except Raised Number := do
  let confidence ← agent.interpreter.floatOr (summary.lookup "confidence") 0
  let rrRatio ← agent.rrRatio summary
  let stopLoss := agent.constants .stopLossPct
  let maxRisk := agent.constants .maxRiskPerTradePct
  let kellySize ← computeDynamicPositionSize confidence stopLoss
    (Number.mul (.finite stopLoss) rrRatio) (agent.constants .kellyFractionScale) maxRisk
  let size ←
    if Number.lt (.finite 0) kellySize then pure kellySize
    else do
      let llmSize ← agent.interpreter.floatOr (summary.lookup "size_pct") (1 / 100)
      pure (llmSize.min (.finite maxRisk))
  let multiplier :=
    RegimeRisk.sizeMultiplier (RegimeRisk.regimeOf macroRegime) (lower action = "buy")
  return size.mul (.finite multiplier)

/-! ## Publication -/

/-- What the agent reads and draws while it processes one signal. -/
structure Occasion where
  context : Payload := []
  budgetUsed : ℤ := 0
  reflection : Value := .dict []
  call : LlmCall
  critique : LlmCall := .timedOut
  /-- `learning:signal_weight_scale`. -/
  weightScale : Option String := none
  /-- `learning:agent_trust`. -/
  agentTrust : Option String := none
  traceId : String := ""
  msgId : String := ""
  strategyId : String := ""
  now : String := ""

/-- `summary.get("action", "").lower()`. -/
def publishedAction (summary : Payload) : Except Raised String :=
  match (summary.lookup "action").getD (.str "") with
  | .str text => .ok (lower text)
  | _ => .error .attributeError

/-- The advisory decision. -/
def decisionPayload (data context summary : Payload) (traceId : String)
    (costUsd weightScale : Number) (occasion : Occasion) : Except Raised Payload := do
  let interpreter := agent.interpreter
  let action ← publishedAction summary
  let strategyId :=
    interpreter.str (Value.orElse (data.lookup "strategy_id") (.str occasion.strategyId))
  let confidence ← interpreter.floatOr (summary.lookup "confidence") 0
  let signal ← interpreter.float (Value.orElse (data.lookup "composite_score")
    (Value.orElse (data.lookup "confidence") (.float 0)))
  let qty ← interpreter.floatOr (data.lookup "qty") 1
  let price ← interpreter.float
    ((data.lookup "price").getD ((data.lookup "last_price").getD (.float 0)))
  let sizePct ← agent.computeKellyPositionSize summary
    ((context.lookup "macro_regime").getD .none) action
  let stopAtrX ← interpreter.floatOr (summary.lookup "stop_atr_x") (15 / 10)
  let rrRatio ← agent.rrRatio summary
  return [("msg_id", .str occasion.msgId), ("source", .str "reasoning_agent"),
    ("strategy_id", .str strategyId),
    ("signal_id", .str (interpreter.str (Value.orElse (data.lookup "signal_id")
      (Value.orElse (data.lookup "msg_id") (.str ""))))),
    ("symbol", (data.lookup "symbol").getD .none), ("action", .str action),
    ("reasoning_score", ((confidence.mul weightScale).round 6).toValue),
    ("signal_confidence", ((signal.mul weightScale).round 6).toValue),
    ("weight_scale", (weightScale.round 6).toValue),
    ("qty", qty.toValue), ("price", price.toValue), ("session_id", .str strategyId),
    ("timestamp", (data.lookup "timestamp").getD (.str occasion.now)), ("trace_id", .str traceId),
    ("primary_edge", (summary.lookup "primary_edge").getD (.str "")),
    ("risk_factors", (summary.lookup "risk_factors").getD (.list [])),
    ("downgrade_reason",
      .str (interpreter.str (Value.orElse (summary.lookup "downgrade_reason") (.str "")))),
    ("model_used", (summary.lookup "model_used").getD (.str "")),
    ("decision_cost_usd", costUsd.toValue), ("size_pct", sizePct.toValue),
    ("stop_atr_x", stopAtrX.toValue), ("rr_ratio", rrRatio.toValue)]

/-- `model_used`. -/
def modelUsed (produced : Produced) : String :=
  if produced.fallbackReason.isSome then "fallback"
  else orDefault produced.modelLabel agent.activeModelLabel

/-- Trace id of the signal, or a fresh one. -/
def traceIdOf (data : Payload) (occasion : Occasion) : String :=
  agent.interpreter.str (Value.orElse (data.lookup "trace_id") (.str occasion.traceId))

/-- What the routing makes of a signal on an occasion. -/
def produced (data : Payload) (occasion : Occasion) : Except Raised Produced :=
  agent.produceDecision data occasion.context (agent.traceIdOf data occasion) occasion.budgetUsed
    occasion.reflection occasion.call

/-- `process` of a signal that is neither suspended, a duplicate nor cooling down, up to the
decision it publishes. -/
def process (data : Payload) (occasion : Occasion) : Except Raised Payload := do
  let produced ← agent.produced data occasion
  let (reviewed, costUsd) ← agent.reviewed produced occasion.critique
  let summary ← agent.applyRiskHierarchy reviewed occasion.context
  let stamped := Dict.set "model_used" (.str (agent.modelUsed produced)) summary
  agent.decisionPayload data occasion.context stamped (agent.traceIdOf data occasion) costUsd
    (agent.weightScale occasion.weightScale occasion.agentTrust) occasion

end Agent

end TradingControl.Reasoning
