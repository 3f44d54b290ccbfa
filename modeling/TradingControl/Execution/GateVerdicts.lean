import TradingControl.Execution.Moments

/-!
# Verdicts of the gates

At a moment the guard on fallback decisions and the pre-execution gates are functions of the world
and the decision.
-/

namespace TradingControl

open Effects Python Engine

/-! ## Verdicts -/

/-- Verdict of the guard on fallback decisions. -/
def fallbackBlocks (config : Config) (world : World) (parsed : ParsedDecision) (data : Decision) :
    Bool :=
  let side := lower parsed.side
  fallbackGuarded config.settings data side &&
    (!config.settings.allowFallbackTrades || config.settings.maxFallbackOrderQty < parsed.qty ||
      fallbackExposureBlocked config.settings side parsed.qty
        (signedPositionQty (world.book.position parsed.symbol)))

/-- The macro payload the cache holds for a symbol. -/
def World.macroPayload (world : World) (symbol : String) : Value :=
  (world.redis (.macroRegime (if contains symbol "/" then "BTC/USD" else "SPY"))).getD (.dict [])

/-- An order is being processed. -/
def World.inFlight (world : World) : Bool := (world.redis .inFlightOrder).getD "" ≠ ""

/-- The recent outcomes weigh towards losses. -/
def World.coolingOff (world : World) : Bool :=
  isCoolingOff (((world.redis .recentOutcomes).getD []).take coolingOffWindow).reverse
    coolingOffDecay

namespace Moment

variable (moment : Moment) (config : Config)

/-- Threshold of the execution gate before the regime is looked at. -/
def baseThreshold : ℚ :=
  config.constants
    (if moment.dbAvailable then .executionDecisionThreshold else .executionDecisionThresholdMemory)

/-- Threshold of the execution gate. -/
def threshold (world : World) (side symbol : String) : ℚ :=
  if side = "buy" then
    RegimeRisk.executionThreshold (RegimeRisk.regimeOf (world.macroPayload symbol))
      (moment.baseThreshold config) true
  else moment.baseThreshold config

/-- The market of a symbol is open to the engine. -/
def marketOpen : Bool := config.settings.simulated || moment.symbolOpen

/-- The no-trade window stops a side. -/
def windowBlocks (side : String) : Bool :=
  config.settings.noTradeWindowEnabled && side = "buy" && moment.noTradeWindow

/-- All gates let an order through. -/
def gatesAdmit (world : World) (side symbol : String) (signalConfidence reasoningScore : ℚ)
    (atrRegimeRatio : Option ℚ) (absPctMove : ℚ) : Bool :=
  !isNoOrderAction side &&
    moment.threshold config world side symbol ≤
      computeExecutionScore signalConfidence reasoningScore &&
    moment.marketOpen config && !moment.windowBlocks config side && !world.inFlight &&
    (checkConfidenceGate signalConfidence side
      (config.constants .signalConfidenceMinGate)).isNone &&
    (choppyRegimeGate atrRegimeRatio).isNone &&
    (checkNetEvGate signalConfidence absPctMove slippagePctPerSide).isNone &&
    (isSell side || !world.coolingOff)

/-! ## The engine reaches them -/

variable {moment config} {world : World} {data : Decision}

/-- Reading a key, whether or not the exception would be caught. -/
theorem looks_redisGet_attempt (key : Key) :
    Engine.Looks moment.Permits world (redisGet key).attempt fun answer =>
      answer = .ok (world.redis key) :=
  Answers.attempt fun choice permitted => by
    simp [engineHandler, permitted.redis, KeyValue.Command.answer, KeyValue.Command.apply]

theorem looks_getPosition (symbol : String) :
    Engine.Looks moment.Permits world (PaperBroker.getPosition symbol) fun position =>
      position = world.book.position symbol := by
  have read : Engine.Looks moment.Permits world (redisGet (.paperPosition symbol)) fun raw =>
      raw = world.redis (.paperPosition symbol) :=
    Answers.perform fun choice permitted => ⟨world.redis (.paperPosition symbol), by
      simp [engineHandler, permitted.redis, KeyValue.Command.answer, KeyValue.Command.apply], rfl⟩
  refine Answers.bind read fun raw same => ?_
  subst same
  exact Answers.ret rfl

theorem looks_isFallbackBlocked (parsed : ParsedDecision) :
    Engine.Looks moment.Permits world (isFallbackBlocked config parsed data) fun blocked =>
      blocked = fallbackBlocks config world parsed data := by
  rw [isFallbackBlocked, fallbackBlocks]
  split
  · rename_i unguarded
    rw [Bool.not_eq_true'] at unguarded
    exact Answers.ret (by rw [unguarded, Bool.false_and])
  rename_i guarded
  rw [Bool.not_eq_true', Bool.not_eq_false] at guarded
  rw [guarded, Bool.true_and]
  split
  · rename_i forbidden
    exact Answers.ret (by rw [forbidden, Bool.true_or, Bool.true_or])
  rename_i allowed
  rw [Bool.not_eq_true] at allowed
  rw [allowed, Bool.false_or]
  split
  · rename_i large
    exact Answers.ret (by rw [decide_eq_true large, Bool.true_or])
  · rename_i small
    rw [decide_eq_false small, Bool.false_or]
    refine Answers.bind (looks_getPosition parsed.symbol) fun position same => ?_
    subst same
    exact Answers.ret rfl

theorem looks_marketOpen (symbol : String) :
    Engine.Looks moment.Permits world (isMarketOpen config symbol) fun isOpen =>
      isOpen = moment.marketOpen config := by
  rw [isMarketOpen, marketOpen]
  split
  · rename_i simulated
    exact Answers.ret (by rw [simulated, Bool.true_or])
  · rename_i live
    rw [Bool.not_eq_true] at live
    rw [live, Bool.false_or]
    exact Answers.perform fun choice permitted => ⟨choice.symbolOpen, rfl, permitted.symbolOpen⟩

theorem looks_readCachedMacroRegime (symbol : String) :
    Engine.Looks moment.Permits world (readCachedMacroRegime symbol) fun payload =>
      payload = world.macroPayload symbol := by
  refine Answers.bind (looks_redisGet_attempt _) fun answer same => ?_
  subst same
  rw [World.macroPayload]
  cases world.redis (.macroRegime (if contains symbol "/" then "BTC/USD" else "SPY")) with
  | none => exact Answers.ret rfl
  | some payload => exact Answers.ret rfl

theorem looks_decisionThreshold (side symbol : String) :
    Engine.Looks moment.Permits world (decisionThreshold config side symbol) fun threshold =>
      threshold = moment.threshold config world side symbol := by
  have mode : Engine.Looks moment.Permits world isDbAvailable fun available =>
      available = moment.dbAvailable :=
    Answers.perform fun choice permitted => ⟨choice.dbAvailable, rfl, permitted.dbAvailable⟩
  refine Answers.bind mode fun available same => ?_
  subst same
  dsimp only
  rw [threshold]
  by_cases buy : side = "buy"
  · rw [if_pos buy, if_pos buy]
    refine Answers.bind (looks_readCachedMacroRegime symbol) fun payload same => ?_
    subst same
    exact Answers.ret rfl
  · rw [if_neg buy, if_neg buy]
    exact Answers.ret rfl

theorem looks_noTradeWindowGate (side : String) :
    Engine.Looks moment.Permits world (noTradeWindowGate config side) fun reason =>
      reason.isSome = moment.windowBlocks config side := by
  rw [noTradeWindowGate, windowBlocks]
  split
  · rename_i enabled
    have window : Engine.Looks moment.Permits world isWithinNoTradeWindow fun within =>
        within = moment.noTradeWindow :=
      Answers.perform fun choice permitted =>
        ⟨choice.noTradeWindow, rfl, permitted.noTradeWindow⟩
    rw [enabled, Bool.true_and]
    refine Answers.bind window fun within same => ?_
    subst same
    cases moment.noTradeWindow
    · exact Answers.ret rfl
    · exact Answers.ret rfl
  · rename_i disabled
    rw [Bool.not_eq_true] at disabled
    rw [disabled, Bool.false_and]
    exact Answers.ret rfl

theorem looks_inFlightGate :
    Engine.Looks moment.Permits world inFlightGate fun reason =>
      reason.isSome = world.inFlight := by
  refine Answers.bind (looks_redisGet_attempt _) fun answer same => ?_
  subst same
  rw [World.inFlight]
  cases world.redis .inFlightOrder with
  | none => exact Answers.ret (by simp)
  | some flag =>
      dsimp only
      split
      · rename_i empty
        exact Answers.ret (by simp [empty])
      · rename_i set
        exact Answers.ret (by simp [set])

theorem looks_checkCoolingOffGate (side : String) :
    Engine.Looks moment.Permits world (checkCoolingOffGate side) fun reason =>
      reason.isSome = (!(isNoOrderAction side || isSell side) && world.coolingOff) := by
  rw [checkCoolingOffGate]
  split
  · rename_i exempt
    rw [exempt]
    exact Answers.ret rfl
  · rename_i gated
    rw [Bool.not_eq_true] at gated
    rw [gated]
    refine Answers.bind (looks_redisGet_attempt _) fun answer same => ?_
    subst same
    rw [World.coolingOff]
    dsimp only
    split
    · rename_i cooling
      exact Answers.ret (by rw [cooling]; rfl)
    · rename_i warm
      rw [Bool.not_eq_true] at warm
      exact Answers.ret (by rw [warm]; rfl)

theorem checkExecutionGate_isNone (side : String) (finalScore threshold : ℚ) (isOpen : Bool) :
    (checkExecutionGate side finalScore threshold isOpen).isNone =
      (!isNoOrderAction side && threshold ≤ finalScore && isOpen) := by
  rw [checkExecutionGate]
  split_ifs with advisory low closed
  · simp [advisory]
  · simp [low]
  · rw [Bool.not_eq_true'] at closed
    simp [closed]
  · rw [Bool.not_eq_true', Bool.not_eq_false] at closed
    simp [advisory, not_lt.mp low, closed]

theorem order_of_checkExecutionGate {side : String} {finalScore threshold : ℚ} {isOpen : Bool}
    (passed : checkExecutionGate side finalScore threshold isOpen = none) :
    isNoOrderAction side = false := by
  have verdict := checkExecutionGate_isNone side finalScore threshold isOpen
  rw [passed] at verdict
  simp only [Option.isNone_none, Bool.true_eq, Bool.and_eq_true, Bool.not_eq_true'] at verdict
  exact verdict.1.1

/-- The gates are passed one after another. -/
theorem looks_evaluatePreExecutionGates (side symbol : String)
    (signalConfidence reasoningScore : ℚ) (atrRegimeRatio : Option ℚ) (absPctMove : ℚ) :
    Engine.Looks moment.Permits world
      (evaluatePreExecutionGates config side symbol signalConfidence reasoningScore atrRegimeRatio
        absPctMove)
      fun reason => reason.isNone =
        moment.gatesAdmit config world side symbol signalConfidence reasoningScore atrRegimeRatio
          absPctMove := by
  rw [evaluatePreExecutionGates, gatesAdmit]
  refine Answers.bind (looks_marketOpen symbol) fun isOpen same => ?_
  subst same
  refine Answers.bind (looks_decisionThreshold side symbol) fun threshold same => ?_
  subst same
  dsimp only
  rw [← checkExecutionGate_isNone]
  cases checked : checkExecutionGate side (computeExecutionScore signalConfidence reasoningScore)
      (moment.threshold config world side symbol) (moment.marketOpen config) with
  | some reason => exact Answers.ret (by simp)
  | none =>
    have ordered : isNoOrderAction side = false := order_of_checkExecutionGate checked
    refine Answers.bind (looks_noTradeWindowGate side) fun window stopped => ?_
    rw [← stopped]
    cases window with
    | some reason => exact Answers.ret (by simp)
    | none =>
      refine Answers.bind looks_inFlightGate fun flag stopped => ?_
      rw [← stopped]
      cases flag with
      | some reason => exact Answers.ret (by simp)
      | none =>
        dsimp only
        cases confident : checkConfidenceGate signalConfidence side
            (config.constants .signalConfidenceMinGate) with
        | some reason => exact Answers.ret (by simp)
        | none =>
          cases calm : choppyRegimeGate atrRegimeRatio with
          | some reason => exact Answers.ret (by simp)
          | none =>
            cases worth : checkNetEvGate signalConfidence absPctMove slippagePctPerSide with
            | some reason => exact Answers.ret (by simp)
            | none =>
              refine (looks_checkCoolingOffGate side).mono fun reason stopped => ?_
              rw [← Option.not_isSome, stopped, ordered]
              simp

end Moment

/-! ## A decision at the gates -/

/-- Volatility ratio of a decision; a text that is no number is an exception. -/
def Decision.ratio (data : Decision) : Option (Option ℚ) :=
  match data.atrRegimeRatio with
  | .absent => some none
  | field => field.toFloat.map some

/-- The gates, with what follows a refusal and what follows an admission. -/
def gatesThen {α : Type} (config : Config) (data : Decision) (refused : Engine α)
    (admitted : ParsedDecision → ℚ → Engine α) : Engine α := do
  match ← parseAndValidate config data with
  | none => refused
  | some parsed =>
    let (signalConfidence, reasoningScore) := extractDecisionScores data
    let atr ← atrRegimeRatio data
    let pct ← requireFloat data.pct.toFloatOrZero
    match ← evaluatePreExecutionGates config parsed.side parsed.symbol signalConfidence
        reasoningScore atr |pct| with
    | some _ => refused
    | none => admitted parsed signalConfidence

theorem passGates_eq (config : Config) (data : Decision) :
    passGates config data = gatesThen config data (return false) fun _ _ => return true := rfl

theorem prepareOrder_eq (config : Config) (data : Decision) :
    prepareOrder config data = gatesThen config data (return none) fun parsed confidence => do
      let qty ← applyKellySizing data parsed.qty parsed.price
      let minute ← parseTimestamp config data
      return some
        { symbol := parsed.symbol
          side := parsed.side
          qty := qty
          price := parsed.price
          strategyId := parsed.strategyId
          traceId := parsed.traceId
          signalConfidence := confidence
          idempotencyKey :=
            buildIdempotencyKey config parsed.strategyId parsed.symbol parsed.side minute data } :=
  rfl

/-- The ids drawn show in the ids alone. -/
theorem parseDecisionFields_drawn (strategyId traceId : String) (data : Decision) :
    parseDecisionFields strategyId traceId data =
      (parseDecisionFields "" "" data).map fun parsed =>
        { parsed with
          strategyId := orDefault data.strategyId strategyId
          traceId := orDefault data.traceId traceId } := by
  unfold parseDecisionFields
  split_ifs with missing
  · rfl
  · split
    · split
      · rfl
      · rfl
    · rfl

namespace Moment

variable (moment : Moment) (config : Config) (world : World) (data : Decision)

/-- The gates let a validated decision through. -/
def passes (parsed : ParsedDecision) : Bool :=
  match data.ratio, data.pct.toFloatOrZero with
  | some ratio, some pct =>
      moment.gatesAdmit config world parsed.side parsed.symbol (extractDecisionScores data).1
        (extractDecisionScores data).2 ratio |pct|
  | _, _ => false

/-- The guard and the gates admit a decision. -/
def admits : Bool :=
  match parseDecisionFields "" "" data with
  | .ok parsed => !fallbackBlocks config world parsed data && moment.passes config world data parsed
  | .error _ => false

variable {moment config world data}

theorem looks_parseAndValidate :
    Engine.Looks moment.Permits world (parseAndValidate config data) fun validated =>
      ∃ strategyId traceId, moment.ids strategyId ∧ moment.ids traceId ∧
        validated = match parseDecisionFields strategyId traceId data with
          | .error _ => none
          | .ok parsed =>
              if fallbackBlocks config world parsed data then none else some parsed := by
  have draw : Engine.Looks moment.Permits world uuid4 moment.ids :=
    Answers.perform fun choice permitted => ⟨choice.uuid, rfl, permitted.uuid⟩
  refine Answers.bind draw fun strategyId first => ?_
  refine Answers.bind draw fun traceId second => ?_
  have named : ∀ validated, validated = (match parseDecisionFields strategyId traceId data with
      | .error _ => none
      | .ok parsed => if fallbackBlocks config world parsed data then none else some parsed) →
      ∃ strategyId traceId, moment.ids strategyId ∧ moment.ids traceId ∧
        validated = match parseDecisionFields strategyId traceId data with
          | .error _ => none
          | .ok parsed => if fallbackBlocks config world parsed data then none else some parsed :=
    fun validated same => ⟨strategyId, traceId, first, second, same⟩
  cases accepted : parseDecisionFields strategyId traceId data with
  | error reason => exact Answers.ret (named _ (by rw [accepted]))
  | ok parsed =>
      refine Answers.bind (looks_isFallbackBlocked parsed) fun blocked same => ?_
      subst same
      split
      · rename_i blocked
        exact Answers.ret (named _ (by rw [accepted]; simp only [blocked, if_true]))
      · rename_i cleared
        exact Answers.ret (named _ (by rw [accepted]; simp only [cleared]; rfl))

/-- The ids drawn do not show in the verdict. -/
theorem admits_of_parsed {strategyId traceId : String} {parsed : ParsedDecision}
    (accepted : parseDecisionFields strategyId traceId data = .ok parsed) :
    moment.admits config world data =
      (!fallbackBlocks config world parsed data && moment.passes config world data parsed) := by
  rw [parseDecisionFields_drawn] at accepted
  rw [admits]
  cases base : parseDecisionFields "" "" data with
  | error reason =>
      rw [base] at accepted
      cases accepted
  | ok plain =>
      rw [base] at accepted
      cases accepted
      rfl

theorem admits_of_unparsed {strategyId traceId : String} {reason : DecisionError}
    (rejected : parseDecisionFields strategyId traceId data = .error reason) :
    moment.admits config world data = false := by
  rw [parseDecisionFields_drawn] at rejected
  rw [admits]
  cases base : parseDecisionFields "" "" data with
  | error reason => rfl
  | ok plain =>
      rw [base] at rejected
      cases rejected

theorem wp_atrRegimeRatio (post : Except Failure (Option ℚ) → World → Prop) :
    (atrRegimeRatio data).wp moment.during post world ↔
      match data.ratio with
      | some ratio => post (.ok ratio) world
      | none => post (.error .valueError) world := by
  rw [atrRegimeRatio, Decision.ratio]
  cases data.atrRegimeRatio with
  | absent => exact Iff.rfl
  | number value => exact Iff.rfl
  | text parsed =>
      cases parsed with
      | none => exact Iff.rfl
      | some value => exact Iff.rfl

theorem wp_requireFloat (value : Option ℚ) (post : Except Failure ℚ → World → Prop) :
    (requireFloat value).wp moment.during post world ↔
      match value with
      | some value => post (.ok value) world
      | none => post (.error .valueError) world := by
  cases value with
  | none => exact Iff.rfl
  | some value => exact Iff.rfl

/-- The engine goes on exactly where the guard and the gates admit the decision. -/
theorem wp_gatesThen {α : Type} {refused : Engine α} {admitted : ParsedDecision → ℚ → Engine α}
    (post : Except Failure α → World → Prop)
    (stops : moment.admits config world data = false →
      post (.error .valueError) world ∧ refused.wp moment.during post world)
    (goesOn : moment.admits config world data = true → ∀ strategyId traceId parsed,
      moment.ids strategyId → parseDecisionFields strategyId traceId data = .ok parsed →
      (admitted parsed (extractDecisionScores data).1).wp moment.during post world) :
    (gatesThen config data refused admitted).wp moment.during post world := by
  refine looks_parseAndValidate.wp_bind ?_
  rintro _ ⟨strategyId, traceId, drawn, -, rfl⟩
  cases accepted : parseDecisionFields strategyId traceId data with
  | error reason => exact (stops (admits_of_unparsed accepted)).2
  | ok parsed =>
      have verdict : moment.admits config world data =
          (!fallbackBlocks config world parsed data && moment.passes config world data parsed) :=
        admits_of_parsed accepted
      dsimp only
      cases guard : fallbackBlocks config world parsed data with
      | true =>
        rw [if_pos rfl]
        exact (stops (by rw [verdict, guard]; rfl)).2
      | false =>
        rw [guard, Bool.not_false, Bool.true_and, passes] at verdict
        rw [if_neg Bool.false_ne_true]
        dsimp only
        rw [Program.bind_eq_bind, Program.wp_bind, wp_atrRegimeRatio]
        cases volatile : data.ratio with
        | none => exact (stops (by rw [verdict, volatile])).1
        | some ratio =>
          dsimp only
          rw [Program.andThen_ok, Program.bind_eq_bind, Program.wp_bind, wp_requireFloat]
          cases moved : data.pct.toFloatOrZero with
          | none => exact (stops (by rw [verdict, volatile, moved])).1
          | some pct =>
            rw [volatile, moved] at verdict
            dsimp only at verdict ⊢
            rw [Program.andThen_ok]
            refine (looks_evaluatePreExecutionGates ..).wp_bind fun reason passed => ?_
            rw [← verdict] at passed
            cases reason with
            | none => exact goesOn passed.symm strategyId traceId parsed drawn accepted
            | some reason => exact (stops passed.symm).2

theorem wp_passGates :
    (passGates config data).wp moment.during
      (fun outcome _ => outcome = .ok true ↔ moment.admits config world data = true) world := by
  rw [passGates_eq]
  refine wp_gatesThen _ (fun refused => ?_) fun admitted strategyId traceId parsed _ _ => ?_
  · rw [Program.pure_eq_ret, Program.wp_ret, refused]
    exact ⟨by simp, by simp⟩
  · rw [Program.pure_eq_ret, Program.wp_ret, admitted]
    exact ⟨fun _ => rfl, fun _ => rfl⟩

end Moment

end TradingControl
