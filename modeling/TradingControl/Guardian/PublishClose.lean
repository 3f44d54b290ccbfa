import TradingControl.Execution.DecisionPayload
import TradingControl.Python.Reference

/-!
# Closes that the guardian publishes

A position that breaches a bound is closed by a decision with the highest scores, which no gate of
the engine refuses.  What the guardian leaves open is the way through the bus: the symbol and the
strategy travel as plain texts, and a symbol whose text reads as a false value arrives as none.
-/

namespace TradingControl
namespace RiskGuardian

open Effects Python Events

/-! ## Deciding -/

/-- An open position, from either source. -/
structure OpenPosition where
  symbol : String
  side : String
  qty : ℚ
  avgCost : ℚ
  strategyId : String

/-- Texts of fractions. -/
structure Percentages where
  /-- `f"{x:.2%}"`. -/
  percent : ℚ → String
  /-- `f"{x:.0%}"`. -/
  wholePercent : ℚ → String

/-- What `_publish_close` is called with. -/
structure Close where
  symbol : String
  action : String
  qty : ℚ
  price : ℚ
  strategyId : String
  reason : String

/-- Fraction by which a position is in profit. -/
def pnlPct (isLong : Bool) (avgCost price : ℚ) : ℚ :=
  if isLong then (price - avgCost) / avgCost else (avgCost - price) / avgCost

section

variable (percentages : Percentages) (constants : Constants) (regime : Option Value)

/-- Why a position is closed: its stop loss, its take profit, or what the trailing stop and the age
of the position say. -/
def closeReason (isLong : Bool) (pnlPct : ℚ) (later : Option String) : Option String :=
  let stop := RegimeRisk.stopLossPct constants regime isLong
  let take := RegimeRisk.takeProfitPct constants regime isLong
  if pnlPct ≤ -stop then
    if stop < constants .stopLossPct then
      some ("stop_loss_risk_off(" ++ percentages.percent pnlPct ++ "<=-" ++
        percentages.wholePercent stop ++ ")")
    else
      some ("stop_loss(" ++ percentages.percent pnlPct ++ ")")
  else if take ≤ pnlPct then
    if take < constants .takeProfitPct then
      some ("take_profit_risk_off(" ++ percentages.percent pnlPct ++ ">=" ++
        percentages.wholePercent take ++ ")")
    else
      some ("take_profit(" ++ percentages.percent pnlPct ++ ")")
  else later

/-- One position of `_check_positions`. -/
def checkPosition (price : Option ℚ) (later : ℚ → Option String) (position : OpenPosition) :
    Option Close :=
  let side := lower position.side
  if side ≠ "long" ∧ side ≠ "short" then none
  else if position.avgCost ≤ 0 ∨ position.qty ≤ 0 then none
  else
    match price with
    | none => none
    | some price =>
        if price ≤ 0 then none
        else
          let isLong : Bool := side = "long"
          let pnl := pnlPct isLong position.avgCost price
          (closeReason percentages constants regime isLong pnl (later pnl)).map fun reason =>
            { symbol := position.symbol
              action := if isLong then "sell" else "buy"
              qty := position.qty
              price := price
              strategyId := position.strategyId
              reason := reason }

variable {percentages constants regime} {price : Option ℚ} {later : ℚ → Option String}
  {position : OpenPosition} {close : Close}

theorem checkPosition_close
    (decided : checkPosition percentages constants regime price later position = some close) :
    0 < close.qty ∧ 0 < close.price ∧ close.symbol = position.symbol ∧
      close.strategyId = position.strategyId := by
  unfold checkPosition at decided
  dsimp only at decided
  split at decided
  · cases decided
  split at decided
  · cases decided
  rename_i unpriced
  rw [not_or, not_le, not_le] at unpriced
  cases price with
  | none => cases decided
  | some price =>
      dsimp only at decided
      split at decided
      · cases decided
      · rename_i positive
        obtain ⟨reason, -, rfl⟩ := Option.map_eq_some_iff.mp decided
        exact ⟨unpriced.2, not_le.mp positive, rfl, rfl⟩

end

/-! ## Publishing -/

/-- What a publish draws from `uuid4` and the clock. -/
structure Stamps where
  msgId : String
  traceId : String
  now : String
  msgIdPlain : Plain msgId
  traceIdPlain : Plain traceId
  nowPlain : Plain now

/-- `_publish_close`. -/
def publishClose (stamps : Stamps) (close : Close) : Dict String Value :=
  [("msg_id", .str stamps.msgId), ("source", .str "risk_guardian"),
    ("strategy_id", .str close.strategyId), ("symbol", .str close.symbol),
    ("action", .str close.action),
    -- risk closes must always execute
    ("signal_confidence", .float 1), ("reasoning_score", .float 1), ("qty", .float close.qty),
    ("price", .float close.price), ("timestamp", .str stamps.now),
    ("trace_id", .str stamps.traceId),
    ("primary_edge", .str ("risk_guardian:" ++ close.reason)),
    ("risk_factors", .list [.str close.reason]), ("size_pct", .float 1), ("stop_atr_x", .float 0),
    ("rr_ratio", .float 0)]

/-- The fields of the entry that a close is published as. -/
def closeFields (codec : Codec) (stamps : Stamps) (close : Close) : List (String × String) :=
  eventFields codec.formatter (publishClose stamps close) stamps.now

variable {runtime : Runtime} {depth : ℕ} {stamps : Stamps} {close : Close}

theorem closeFields_eq (codec : Codec) (stamps : Stamps) (close : Close) :
    closeFields codec stamps close =
      [("msg_id", stamps.msgId), ("source", "risk_guardian"), ("strategy_id", close.strategyId),
        ("symbol", close.symbol), ("action", close.action),
        ("signal_confidence", codec.formatter.float 1),
        ("reasoning_score", codec.formatter.float 1), ("qty", codec.formatter.float close.qty),
        ("price", codec.formatter.float close.price), ("timestamp", stamps.now),
        ("trace_id", stamps.traceId), ("primary_edge", "risk_guardian:" ++ close.reason),
        ("risk_factors", codec.formatter.dumps (.list [.str close.reason])),
        ("size_pct", codec.formatter.float 1), ("stop_atr_x", codec.formatter.float 0),
        ("rr_ratio", codec.formatter.float 0), ("schema_version", "v3")] := rfl

theorem distinct_closeFields (codec : Codec) (stamps : Stamps) (close : Close) :
    (Dict.keys (closeFields codec stamps close)).Nodup := by
  rw [closeFields_eq]
  simp only [Dict.keys, List.map_cons, List.map_nil]
  decide

section

variable {close : Close}

theorem toList_primaryEdge (reason : String) :
    ∃ rest, ("risk_guardian:" ++ reason).toList = 'r' :: rest := by
  rw [String.toList_append]
  exact ⟨_, rfl⟩

theorem primaryEdge_plain (reason : String) : Plain ("risk_guardian:" ++ reason) := by
  obtain ⟨rest, shape⟩ := toList_primaryEdge reason
  refine ⟨lower_ne_of_head shape (by decide), lower_ne_of_head shape (by decide), ?_⟩
  rw [shape]
  rintro letter same
  cases same
  decide

/-- No reason makes the edge of a close that of a fallback. -/
theorem primaryEdge_notFallback (reason : String) :
    startsWith (lower ("risk_guardian:" ++ reason)) "fallback:" = false ∧
      lower ("risk_guardian:" ++ reason) ≠ "fallback" ∧ "risk_guardian:" ++ reason ≠ "" := by
  obtain ⟨rest, shape⟩ := toList_primaryEdge reason
  refine ⟨?_, lower_ne_of_head shape (by decide), ?_⟩
  · simp [startsWith, lower, shape, List.isPrefixOf]
  · intro empty
    rw [empty] at shape
    cases shape

theorem deserialize_riskFactors (runtime : Runtime) (depth : ℕ) (reason : String) :
    (deserialize (Codec.ofRuntime runtime (depth + 1))
      ((Codec.ofRuntime runtime (depth + 1)).formatter.dumps (.list [.str reason]))).isOk =
        true := by
  have written : Json.dumps runtime (depth + 1) {} (.list [.str reason]) =
      .ok (String.ofList (Json.enclosed none 0 '[' ']' [Json.encodeText reason])) := by
    simp [Json.dumps, Json.encode, List.mapM_cons, List.mapM_nil, bind, Except.bind, pure,
      Except.pure, Except.map]
  have faithful : Json.Faithful runtime (.list [.str reason]) := by
    refine .list _ fun item member => ?_
    rw [List.mem_singleton.mp member]
    exact .str reason
  have reads := deserialize_dumps_list written faithful
  simp only [Codec.ofRuntime, written] at reads ⊢
  rw [reads]
  rfl

/-- Floats of a close, which are to be written so that they can be read. -/
def Close.floats (close : Close) : List ℚ := [0, 1, close.qty, close.price]

/-- A close is read back when its strategy and its symbol are. -/
theorem isOk_decode_closeFields_iff (runtime : Runtime) (depth : ℕ) (stamps : Stamps)
    (sells : close.action = "sell")
    (prints : ∀ x ∈ close.floats, Json.FloatText runtime x) :
    (decodeFields (Codec.ofRuntime runtime (depth + 1))
        (closeFields (Codec.ofRuntime runtime (depth + 1)) stamps close)).isOk = true ↔
      (deserialize (Codec.ofRuntime runtime (depth + 1)) close.strategyId).isOk = true ∧
        (deserialize (Codec.ofRuntime runtime (depth + 1)) close.symbol).isOk = true := by
  have plain {text : String} (isPlain : Plain text) :
      (deserialize (Codec.ofRuntime runtime (depth + 1)) text).isOk = true := by
    rw [deserialize_of_plain _ isPlain]
    rfl
  have float {x : ℚ} (member : x ∈ close.floats) :
      (deserialize (Codec.ofRuntime runtime (depth + 1))
        ((Codec.ofRuntime runtime (depth + 1)).formatter.float x)).isOk = true :=
    plain (plain_of_floatText (prints x member)).1
  rw [isOk_decodeFields_iff _ (distinct_closeFields _ _ _), closeFields_eq]
  have zero : (0 : ℚ) ∈ close.floats := by simp [Close.floats]
  have one : (1 : ℚ) ∈ close.floats := by simp [Close.floats]
  have qty : close.qty ∈ close.floats := by simp [Close.floats]
  have price : close.price ∈ close.floats := by simp [Close.floats]
  simp only [List.forall_mem_cons, List.not_mem_nil, false_imp_iff, implies_true, and_true]
  rw [eq_true (plain stamps.msgIdPlain), eq_true (plain stamps.traceIdPlain),
    eq_true (plain stamps.nowPlain), eq_true (plain (primaryEdge_plain close.reason)),
    eq_true (deserialize_riskFactors runtime depth close.reason), eq_true (float zero),
    eq_true (float one), eq_true (float qty), eq_true (float price), sells,
    eq_true (plain (show Plain "risk_guardian" by decide)),
    eq_true (plain (show Plain "sell" by decide)), eq_true (plain (show Plain "v3" by decide))]
  simp only [true_and, and_true]

/-- What reaches the engine is a sell with full scores, whatever the bus made of the symbol. -/
theorem sureSell_ofPayload {decoded : Dict String Value} (sells : close.action = "sell")
    (qty : 0 < close.qty) (price : 0 < close.price)
    (prints : ∀ x ∈ close.floats, Json.FloatText runtime x)
    (read : decodeFields (Codec.ofRuntime runtime depth)
      (closeFields (Codec.ofRuntime runtime depth) stamps close) = .ok decoded) :
    (Decision.ofPayload runtime decoded).SureSell := by
  have distinct := distinct_closeFields (Codec.ofRuntime runtime depth) stamps close
  have one : Json.FloatText runtime 1 := prints 1 (by simp [Close.floats])
  have action : textField runtime decoded "action" = some "sell" :=
    textField_of_plain distinct read (by rw [closeFields_eq, sells]; rfl) (by decide) (by decide)
  have source : textField runtime decoded "source" = some "risk_guardian" :=
    textField_of_plain distinct read (by rw [closeFields_eq]; rfl) (by decide) (by decide)
  have edge : textField runtime decoded "primary_edge" = some ("risk_guardian:" ++ close.reason) :=
    textField_of_plain distinct read (by rw [closeFields_eq]; rfl) (primaryEdge_plain _)
      (primaryEdge_notFallback _).2.2
  have confidence : numberField runtime decoded "signal_confidence" = .text (some 1) :=
    numberField_of_float distinct read (by rw [closeFields_eq]; rfl) one
  have reasoning : numberField runtime decoded "reasoning_score" = .text (some 1) :=
    numberField_of_float distinct read (by rw [closeFields_eq]; rfl) one
  have absent (key : String)
      (unsent : (closeFields (Codec.ofRuntime runtime depth) stamps close).lookup key = none) :
      textField runtime decoded key = none ∧ numberField runtime decoded key = .absent :=
    ⟨textField_of_absent distinct read unsent, numberField_of_absent distinct read unsent⟩
  constructor
  · show lower (orDefault (orElse (textField runtime decoded "action") _) "") = "sell"
    rw [action, orElse]
    rw [if_neg (by decide)]
    decide
  · exact ⟨close.qty, numberField_of_float distinct read (by rw [closeFields_eq]; rfl)
      (prints _ (by simp [Close.floats])), qty⟩
  · exact ⟨close.price, numberField_of_float distinct read (by rw [closeFields_eq]; rfl)
      (prints _ (by simp [Close.floats])), price⟩
  · simp [extractDecisionScores, Decision.ofPayload, confidence, reasoning, Scalar.toFloat]
  · obtain ⟨notMarked, notNamed, nonempty⟩ := primaryEdge_notFallback close.reason
    have reason := (absent "reason" (by rw [closeFields_eq]; rfl)).1
    have fallbackReason := (absent "fallback_reason" (by rw [closeFields_eq]; rfl)).1
    have unsaid : llmSucceededField decoded = none := by
      have missing := lookup_of_absent distinct read
        (show (closeFields _ stamps close).lookup "llm_succeeded" = none by
          rw [closeFields_eq]; rfl)
      simp [llmSucceededField, Value.get, missing]
    have words : contains (lower "") "fallback" = false ∧
        lower "risk_guardian" ≠ "fallback" := by decide
    simp [Decision.isFallback, Decision.ofPayload, reason, source, edge, fallbackReason, unsaid,
      orDefault, words, notMarked, notNamed]
  · exact (absent "atr_regime_ratio" (by rw [closeFields_eq]; rfl)).2
  · exact (absent "pct" (by rw [closeFields_eq]; rfl)).2

/-! ## The way to the engine -/

/-- The bus reads the event back, and what the engine makes of it passes validation and every gate,
in every world without an order in flight and under every choice that keeps the markets open. -/
def Cleared (config : Config) (codec : Codec) (fields : List (String × String)) : Prop :=
  ∃ decoded, decodeFields codec fields = .ok decoded ∧
    ∀ choices world, (∀ n, KeepsOpen config (choices n)) → world.NoneInFlight →
      ((passGates config (Decision.ofPayload codec.runtime decoded)).exec engineHandler choices
        world).1 = .ok true

theorem lookup_symbol (codec : Codec) (stamps : Stamps) (close : Close) :
    (closeFields codec stamps close).lookup "symbol" = some close.symbol := rfl

/-- The engine finds a symbol in the message exactly where its text reads as a true value. -/
theorem symbol_ofPayload {decoded : Dict String Value} {symbol : Value}
    (printed : symbol.truthy = true → runtime.str symbol ≠ "")
    (found : decoded.lookup "symbol" = some symbol) :
    orDefault (Decision.ofPayload runtime decoded).symbol "" ≠ "" ↔ symbol.truthy = true := by
  show orDefault (textField runtime decoded "symbol") "" ≠ "" ↔ _
  rw [textField, Value.get, found]
  dsimp only
  by_cases truthy : symbol.truthy = true
  · simp [truthy, orDefault, printed truthy]
  · simp [truthy, orDefault]

/-- A close that clears the gates names a symbol that the bus reads as a true value. -/
theorem symbol_of_cleared {config : Config} {codec : Codec}
    (printed : ∀ symbol, deserialize codec close.symbol = .ok symbol → symbol.truthy = true →
      codec.runtime.str symbol ≠ "")
    (cleared : Cleared config codec (closeFields codec stamps close)) :
    ∃ symbol, deserialize codec close.symbol = .ok symbol ∧ symbol.truthy = true := by
  obtain ⟨decoded, read, passes⟩ := cleared
  obtain ⟨symbol, decodes, found⟩ :=
    lookup_of_found (distinct_closeFields codec stamps close) read (lookup_symbol ..)
  refine ⟨symbol, decodes, ?_⟩
  by_contra falsy
  have unnamed : orDefault (Decision.ofPayload codec.runtime decoded).symbol "" = "" := by
    by_contra named
    exact falsy ((symbol_ofPayload (printed symbol decodes) found).mp named)
  have refused : Engine.Looks (fun _ => True) { redis := fun _ => none }
      (passGates config (Decision.ofPayload codec.runtime decoded)) fun passed => passed = false :=
    looks_passGates_unnamed unnamed
  have accepted := passes (fun _ => {}) { redis := fun _ => none } (fun _ => Or.inr rfl)
    (Or.inl rfl)
  obtain ⟨passed, returned, same⟩ := refused.exec (fun _ => trivial)
  rw [returned, same] at accepted
  cases accepted

/-- A decided close of a long position clears every gate exactly when the bus reads back the
strategy, and the symbol as a true value. -/
theorem cleared_iff (runtime : Runtime) (depth : ℕ) (stamps : Stamps) (percentages : Percentages)
    (config : Config) (overrides : List ParamOverride) (regime : Option Value) (price : Option ℚ)
    (later : ℚ → Option String) (position : OpenPosition) (close : Close)
    (tuned : config.constants = applyParamOverrides overrides)
    (decided : checkPosition percentages config.constants regime price later position = some close)
    (sells : close.action = "sell")
    (prints : ∀ x ∈ close.floats, Json.FloatText runtime x)
    (printed : ∀ symbol, deserialize (Codec.ofRuntime runtime (depth + 1)) close.symbol =
      .ok symbol → symbol.truthy = true → runtime.str symbol ≠ "") :
    Cleared config (Codec.ofRuntime runtime (depth + 1))
        (closeFields (Codec.ofRuntime runtime (depth + 1)) stamps close) ↔
      (deserialize (Codec.ofRuntime runtime (depth + 1)) position.strategyId).isOk = true ∧
        ∃ symbol, deserialize (Codec.ofRuntime runtime (depth + 1)) position.symbol = .ok symbol ∧
          symbol.truthy = true := by
  obtain ⟨qty, positive, sameSymbol, sameStrategy⟩ := checkPosition_close decided
  rw [← sameSymbol, ← sameStrategy]
  have readable := isOk_decode_closeFields_iff runtime depth stamps sells prints
  constructor
  · intro cleared
    refine ⟨?_, symbol_of_cleared printed cleared⟩
    obtain ⟨decoded, read, -⟩ := cleared
    rw [read] at readable
    exact (readable.mp rfl).1
  · rintro ⟨strategy, symbol, decodes, truthy⟩
    have both := readable.mpr ⟨strategy, by rw [decodes]; rfl⟩
    cases read : decodeFields (Codec.ofRuntime runtime (depth + 1))
        (closeFields (Codec.ofRuntime runtime (depth + 1)) stamps close) with
    | error raised => rw [read] at both; cases both
    | ok decoded =>
        refine ⟨decoded, read, fun choices world keeps free => ?_⟩
        obtain ⟨held, same, found⟩ :=
          lookup_of_found (distinct_closeFields _ stamps close) read (lookup_symbol ..)
        obtain rfl : symbol = held := Except.ok.inj (decodes.symm.trans same)
        have named := (symbol_ofPayload (printed symbol decodes) found).mpr truthy
        have sure := sureSell_ofPayload sells qty positive prints read
        have bounds (parameter : Parameter) :
            config.constants parameter ≤ (paramBounds parameter).2 := by
          rw [tuned]
          exact (applyParamOverrides_within overrides parameter).2
        obtain ⟨passed, returned, rfl⟩ := (looks_passGates sure named
          ((bounds .executionDecisionThreshold).trans (by norm_num [paramBounds]))
          ((bounds .executionDecisionThresholdMemory).trans (by norm_num [paramBounds]))
          ((bounds .signalConfidenceMinGate).trans (by norm_num [paramBounds])) free).exec keeps
        exact congrArg Prod.fst returned

end

/-! ## A symbol that reads as a false value -/

/-- The runtime says that the position of a symbol has lost a tenth. -/
def breached (symbol : String) : OpenPosition where
  symbol := symbol
  side := "long"
  qty := 1
  avgCost := 100
  strategyId := "momentum"

def plainPercentages : Percentages where
  percent _ := "-10.00%"
  wholePercent _ := "-10%"

def stopLossClose (symbol : String) : Close where
  symbol := symbol
  action := "sell"
  qty := 1
  price := 90
  strategyId := "momentum"
  reason := "stop_loss(-10.00%)"

theorem checkPosition_breached (symbol : String) :
    checkPosition plainPercentages defaultConstants none (some 90) (fun _ => none)
      (breached symbol) = some (stopLossClose symbol) := by
  have long : lower "long" = "long" := by decide
  have loss : ((90 : ℚ) - 100) / 100 ≤ -(5 / 100) := by norm_num
  simp [checkPosition, breached, long, pnlPct, closeReason, RegimeRisk.stopLossPct,
    defaultConstants, loss, stopLossClose, plainPercentages]

def closeStamps : Stamps where
  msgId := "m1"
  traceId := "t1"
  now := "2026-01-02T00:00:00+00:00"
  msgIdPlain := by decide
  traceIdPlain := by decide
  nowPlain := by decide

theorem prints_stopLossClose (symbol : String) :
    ∀ x ∈ (stopLossClose symbol).floats, Json.FloatText Reference.decimalRuntime x := by
  show ∀ x ∈ [0, 1, (1 : ℚ), 90], _
  decide +kernel

/-- The stop loss of a position in BTC/USD clears the gates. -/
theorem cleared_stopLoss :
    Cleared {} (Codec.ofRuntime Reference.decimalRuntime 899)
        (closeFields (Codec.ofRuntime Reference.decimalRuntime 899) closeStamps
          (stopLossClose "BTC/USD")) ↔
      (deserialize (Codec.ofRuntime Reference.decimalRuntime 899) "momentum").isOk = true ∧
        ∃ symbol, deserialize (Codec.ofRuntime Reference.decimalRuntime 899) "BTC/USD" =
          .ok symbol ∧ symbol.truthy = true :=
  cleared_iff Reference.decimalRuntime 898 closeStamps plainPercentages {} [] none (some 90)
    (fun _ => none) (breached "BTC/USD") (stopLossClose "BTC/USD") rfl
    (checkPosition_breached _) rfl (prints_stopLossClose _) fun symbol same truthy => by
      cases same
      decide

/-- A position in FALSE has lost a tenth, and its stop loss is refused for want of a symbol. -/
theorem stopLoss_refused :
    ¬∀ (runtime : Runtime) (depth : ℕ) (stamps : Stamps) (percentages : Percentages)
      (config : Config) (overrides : List ParamOverride) (regime : Option Value)
      (price : Option ℚ) (later : ℚ → Option String) (position : OpenPosition) (close : Close),
      config.constants = applyParamOverrides overrides →
      checkPosition percentages config.constants regime price later position = some close →
      close.action = "sell" → (∀ x ∈ close.floats, Json.FloatText runtime x) →
      (∀ symbol, deserialize (Codec.ofRuntime runtime (depth + 1)) close.symbol = .ok symbol →
        symbol.truthy = true → runtime.str symbol ≠ "") →
      Cleared config (Codec.ofRuntime runtime (depth + 1))
        (closeFields (Codec.ofRuntime runtime (depth + 1)) stamps close) := by
  intro always
  have decodes : deserialize (Codec.ofRuntime Reference.decimalRuntime 899) "FALSE" =
      .ok (.bool false) := rfl
  have printed : ∀ symbol,
      deserialize (Codec.ofRuntime Reference.decimalRuntime 899) (stopLossClose "FALSE").symbol =
        .ok symbol → symbol.truthy = true → Reference.decimalRuntime.str symbol ≠ "" := by
    intro symbol same truthy
    rw [stopLossClose, decodes] at same
    cases same
    cases truthy
  obtain ⟨symbol, same, truthy⟩ := symbol_of_cleared printed
    (always Reference.decimalRuntime 898 closeStamps plainPercentages {} [] none (some 90)
      (fun _ => none) (breached "FALSE") (stopLossClose "FALSE") rfl (checkPosition_breached _) rfl
      (prints_stopLossClose _) printed)
  rw [show deserialize _ (stopLossClose "FALSE").symbol = _ from decodes] at same
  cases same
  cases truthy

end RiskGuardian
end TradingControl
