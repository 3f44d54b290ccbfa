import TradingControl.Effects.Answers
import TradingControl.Events.Decoding
import TradingControl.Execution.Gates

/-!
# From a message to the gates

The engine reads a decision field by field from the dictionary that the bus hands it.  What it does
with one before it sizes the order is the same on both paths: validation, the guard on fallback
decisions, and the gates.
-/

namespace TradingControl

open Effects Python Engine

/-! ## Fields of a payload -/

/-- `str(payload.get(key) or …)`, where it is not the default. -/
def textField (runtime : Runtime) (payload : Dict String Value) (key : String) : Option String :=
  match Value.get payload key with
  | some value => if value.truthy then some (runtime.str value) else none
  | none => none

/-- A field that is passed to `float()`. -/
def numberField (runtime : Runtime) (payload : Dict String Value) (key : String) : Scalar :=
  match Value.get payload key with
  | none => .absent
  | some .none => .absent
  | some (.bool value) => .number (if value then 1 else 0)
  | some (.int value) => .number value
  | some (.float value) => .number value
  | some (.str text) => if text = "" then .absent else .text (runtime.parseFloat text)
  | some value => if value.truthy then .text none else .absent

/-- `payload.get(TIMESTAMP)`, where it is not `None`. -/
def timestampField (runtime : Runtime) (payload : Dict String Value) : Option String :=
  match Value.get payload "timestamp" with
  | none => none
  | some .none => none
  | some value => some (runtime.str value)

/-- `payload.get(LLM_SUCCEEDED)`, where it is a truth value. -/
def llmSucceededField (payload : Dict String Value) : Option Bool :=
  match Value.get payload "llm_succeeded" with
  | some (.bool value) => some value
  | _ => none

/-- The fields that the engine reads from a message. -/
def Decision.ofPayload (runtime : Runtime) (payload : Dict String Value) : Decision where
  action := textField runtime payload "action"
  side := textField runtime payload "side"
  symbol := textField runtime payload "symbol"
  qty := numberField runtime payload "qty"
  price := numberField runtime payload "price"
  strategyId := textField runtime payload "strategy_id"
  traceId := textField runtime payload "trace_id"
  timestamp := timestampField runtime payload
  signalConfidence := numberField runtime payload "signal_confidence"
  compositeScore := numberField runtime payload "composite_score"
  confidence := numberField runtime payload "confidence"
  reasoningScore := numberField runtime payload "reasoning_score"
  signalType := textField runtime payload "signal_type"
  atrRegimeRatio := numberField runtime payload "atr_regime_ratio"
  pct := numberField runtime payload "pct"
  sizePct := numberField runtime payload "size_pct"
  reason := textField runtime payload "reason"
  source := textField runtime payload "source"
  primaryEdge := textField runtime payload "primary_edge"
  llmSucceeded := llmSucceededField payload
  fallbackReason := textField runtime payload "fallback_reason"
  modelUsed := textField runtime payload "model_used"
  decisionCostUsd := numberField runtime payload "decision_cost_usd"

section

open Events

variable {runtime : Runtime} {depth : ℕ} {fields : List (String × String)}
  {decoded : Dict String Value} {key text : String} (distinct : (Dict.keys fields).Nodup)
  (read : decodeFields (Codec.ofRuntime runtime depth) fields = .ok decoded)

include distinct read

/-- A plain text reaches the engine as it was published. -/
theorem textField_of_plain (found : fields.lookup key = some text) (plain : Plain text)
    (nonempty : text ≠ "") : textField runtime decoded key = some text := by
  have held := lookup_of_plain distinct read found plain
  simp [textField, Value.get, held, Value.truthy, nonempty, Runtime.str]

theorem textField_of_absent (absent : fields.lookup key = none) :
    textField runtime decoded key = none := by
  simp [textField, Value.get, lookup_of_absent distinct read absent]

/-- A float reaches the engine as a text of itself. -/
theorem numberField_of_float {x : ℚ} (found : fields.lookup key = some (runtime.text x))
    (prints : Json.FloatText runtime x) :
    numberField runtime decoded key = .text (some x) := by
  obtain ⟨plain, nonempty⟩ := plain_of_floatText prints
  have held := lookup_of_plain distinct read found plain
  simp [numberField, Value.get, held, nonempty, prints.2]

theorem numberField_of_absent (absent : fields.lookup key = none) :
    numberField runtime decoded key = .absent := by
  simp [numberField, Value.get, lookup_of_absent distinct read absent]

end

/-! ## The gates -/

/-- The part of both paths before the sizing: whether the decision goes on. -/
def passGates (config : Config) (data : Decision) : Engine Bool := do
  match ← parseAndValidate config data with
  | none => return false
  | some parsed =>
    let (signalConfidence, reasoningScore) := extractDecisionScores data
    let atr ← atrRegimeRatio data
    let pct ← requireFloat data.pct.toFloatOrZero
    match ← evaluatePreExecutionGates config parsed.side parsed.symbol signalConfidence
        reasoningScore atr |pct| with
    | some _ => return false
    | none => return true

/-- The environment keeps the market of every symbol open. -/
def KeepsOpen (config : Config) (choice : Choice) : Prop :=
  config.settings.simulated = true ∨ choice.symbolOpen = true

/-- No order is being processed. -/
def World.NoneInFlight (world : World) : Prop :=
  world.redis .inFlightOrder = none ∨ world.redis .inFlightOrder = some ""

/-- The engine looks and answers, whatever the environment allowed to it decides. -/
abbrev Engine.Looks {α : Type} (allowed : Choice → Prop) (world : World) (program : Engine α)
    (property : α → Prop) : Prop :=
  Answers engineHandler allowed world program property

section

variable {allowed : Choice → Prop} {config : Config} {world : World}

theorem looks_uuid4 : Engine.Looks allowed world uuid4 fun _ => True :=
  Answers.perform fun choice _ => ⟨choice.uuid, rfl, trivial⟩

theorem looks_isMarketOpen (symbol : String) :
    Engine.Looks (KeepsOpen config) world (isMarketOpen config symbol) fun isOpen =>
      isOpen = true := by
  rw [isMarketOpen]
  split
  · exact Answers.ret rfl
  · rename_i live
    exact Answers.perform fun choice keeps =>
      ⟨choice.symbolOpen, rfl, keeps.resolve_left live⟩

/-- The threshold of a sell is one of the two tunable ones. -/
theorem looks_decisionThreshold_sell (symbol : String) :
    Engine.Looks allowed world (decisionThreshold config "sell" symbol) fun threshold =>
      threshold = config.constants .executionDecisionThreshold ∨
        threshold = config.constants .executionDecisionThresholdMemory := by
  have mode : Engine.Looks allowed world isDbAvailable fun _ => True :=
    Answers.perform fun choice _ => ⟨choice.dbAvailable, rfl, trivial⟩
  refine Answers.bind mode fun available _ => ?_
  dsimp only
  rw [if_neg (by decide)]
  refine Answers.ret ?_
  cases available
  · exact Or.inr rfl
  · exact Or.inl rfl

theorem looks_noTradeWindowGate_sell :
    Engine.Looks allowed world (noTradeWindowGate config "sell") fun reason =>
      reason = none := by
  rw [noTradeWindowGate, if_neg (by simp)]
  exact Answers.ret rfl

theorem looks_inFlightGate (free : world.NoneInFlight) :
    Engine.Looks allowed world inFlightGate fun reason => reason = none := by
  have flag : Engine.Looks allowed world (redisGet .inFlightOrder).attempt fun answer =>
      answer = .error .redisError ∨ answer = .ok none ∨ answer = .ok (some "") := by
    refine Answers.attempt fun choice _ => ?_
    by_cases fails : choice.redisFails = true
    · simp [engineHandler, fails]
    · rcases free with free | free <;> simp [engineHandler, fails, KeyValue.Command.answer, free]
  refine Answers.bind flag fun answer cases => ?_
  rcases cases with rfl | rfl | rfl <;> exact Answers.ret rfl

theorem looks_checkCoolingOffGate_sell :
    Engine.Looks allowed world (checkCoolingOffGate "sell") fun reason => reason = none := by
  rw [checkCoolingOffGate, if_pos (by decide)]
  exact Answers.ret rfl

/-- A sell with full scores clears every gate. -/
theorem looks_evaluatePreExecutionGates_sell (symbol : String)
    (threshold : config.constants .executionDecisionThreshold ≤ 92 / 100)
    (memory : config.constants .executionDecisionThresholdMemory ≤ 92 / 100)
    (confidence : config.constants .signalConfidenceMinGate ≤ 1) (free : world.NoneInFlight) :
    Engine.Looks (KeepsOpen config) world
      (evaluatePreExecutionGates config "sell" symbol 1 1 none 0) fun reason => reason = none := by
  rw [evaluatePreExecutionGates]
  refine Answers.bind (looks_isMarketOpen symbol) fun isOpen opened => ?_
  subst opened
  refine Answers.bind (looks_decisionThreshold_sell symbol) fun bar resolved => ?_
  have cleared : bar ≤ computeExecutionScore 1 1 := by
    have score : computeExecutionScore 1 1 = 92 / 100 := by norm_num [computeExecutionScore]
    rw [score]
    rcases resolved with rfl | rfl
    · exact threshold
    · exact memory
  have advisory : isNoOrderAction "sell" = false := by decide
  have scored : checkExecutionGate "sell" (computeExecutionScore 1 1) bar true = none := by
    simp [checkExecutionGate, advisory, not_lt.mpr cleared]
  dsimp only
  rw [scored]
  refine Answers.bind looks_noTradeWindowGate_sell fun reason passed => ?_
  subst passed
  refine Answers.bind (looks_inFlightGate free) fun reason passed => ?_
  subst passed
  have sure : checkConfidenceGate 1 "sell" (config.constants .signalConfidenceMinGate) = none := by
    simp [checkConfidenceGate, advisory, not_lt.mpr confidence]
  have unmoved : checkNetEvGate 1 0 slippagePctPerSide = none := if_pos le_rfl
  simp only [sure, unmoved, choppyRegimeGate, Option.orElse_eq_orElse, Option.orElse]
  exact looks_checkCoolingOffGate_sell

/-! ## Sells without doubt -/

/-- A sell with full scores and without a mark of a fallback, a volatility ratio or a move. -/
structure Decision.SureSell (data : Decision) : Prop where
  side : data.sideOrAction = "sell"
  qty : ∃ qty, data.qty = .text (some qty) ∧ 0 < qty
  price : ∃ price, data.price = .text (some price) ∧ 0 < price
  scores : extractDecisionScores data = (1, 1)
  notFallback : data.isFallback = false
  noRatio : data.atrRegimeRatio = .absent
  noMove : data.pct = .absent

variable {data : Decision}

/-- A decision without a symbol is refused. -/
theorem looks_passGates_unnamed (unnamed : orDefault data.symbol "" = "") :
    Engine.Looks allowed world (passGates config data) fun passes => passes = false := by
  have refused : Engine.Looks allowed world (parseAndValidate config data) fun parsed =>
      parsed = none := by
    refine Answers.bind looks_uuid4 fun strategyId _ => ?_
    refine Answers.bind looks_uuid4 fun traceId _ => ?_
    have missing : data.missing ≠ [] := by simp [Decision.missing, unnamed]
    rw [parseDecisionFields, if_pos missing]
    exact Answers.ret rfl
  refine Answers.bind refused fun parsed none => ?_
  subst none
  exact Answers.ret rfl

theorem looks_parseAndValidate (sure : data.SureSell) (named : orDefault data.symbol "" ≠ "") :
    Engine.Looks allowed world (parseAndValidate config data) fun parsed =>
      ∃ accepted, parsed = some accepted ∧ accepted.side = "sell" := by
  obtain ⟨qty, qtyField, qtyPositive⟩ := sure.qty
  obtain ⟨price, priceField, pricePositive⟩ := sure.price
  have complete : data.missing = [] := by
    simp [Decision.missing, named, qtyField, priceField, Scalar.truthy, sure.side]
  refine Answers.bind looks_uuid4 fun strategyId _ => ?_
  refine Answers.bind looks_uuid4 fun traceId _ => ?_
  rw [parseDecisionFields, if_neg (not_not_intro complete), qtyField, priceField]
  dsimp only [Scalar.toFloat]
  rw [if_neg (by simp [qtyPositive, pricePositive])]
  dsimp only
  rw [isFallbackBlocked, fallbackGuarded, sure.notFallback]
  dsimp only
  rw [if_pos (by simp)]
  exact Answers.ret ⟨_, rfl, sure.side⟩

theorem looks_passGates (sure : data.SureSell) (named : orDefault data.symbol "" ≠ "")
    (threshold : config.constants .executionDecisionThreshold ≤ 92 / 100)
    (memory : config.constants .executionDecisionThresholdMemory ≤ 92 / 100)
    (confidence : config.constants .signalConfidenceMinGate ≤ 1) (free : world.NoneInFlight) :
    Engine.Looks (KeepsOpen config) world (passGates config data) fun passes => passes = true := by
  refine Answers.bind (looks_parseAndValidate sure named) ?_
  rintro parsed ⟨accepted, rfl, side⟩
  dsimp only
  rw [sure.scores, atrRegimeRatio, sure.noRatio, sure.noMove, side]
  refine Answers.bind (Answers.ret rfl) fun ratio same => ?_
  subst same
  refine Answers.bind (Answers.ret rfl) fun pct same => ?_
  subst same
  rw [abs_zero]
  refine Answers.bind (looks_evaluatePreExecutionGates_sell accepted.symbol threshold memory
    confidence free) fun reason passed => ?_
  subst passed
  exact Answers.ret rfl

end

end TradingControl
