import Mathlib.Data.Rat.Defs
import Mathlib.Logic.Function.Basic
import Mathlib.Tactic.NormNum

/-!
# Constants and parameter overrides

The learning loop tunes a small allowlist of constants through a data file.  Each override is kept
only inside the bounds of its parameter, and the kept ones are laid over the defaults at import.
-/

namespace TradingControl

/-- Parameters the learning loop may tune, the keys of `PARAM_BOUNDS`. -/
inductive Parameter where
  | signalConfidenceMinGate
  | executionDecisionThreshold
  | executionDecisionThresholdMemory
  | stopLossPct
  | takeProfitPct
  | maxRiskPerTradePct
  | kellyFractionScale
  | trailingStopArmPct
  | trailingStopGivebackFrac
  | stalePositionMaxAgeSeconds
  | stalePositionPnlBandPct
  | llmCallDelayMs
deriving DecidableEq, Repr

/-- `PARAM_BOUNDS`: inclusive safe bounds. -/
def paramBounds : Parameter → ℚ × ℚ
  | .signalConfidenceMinGate => (3 / 10, 8 / 10)
  | .executionDecisionThreshold => (4 / 10, 8 / 10)
  | .executionDecisionThresholdMemory => (3 / 10, 8 / 10)
  | .stopLossPct => (1 / 100, 15 / 100)
  | .takeProfitPct => (2 / 100, 40 / 100)
  | .maxRiskPerTradePct => (5 / 1000, 5 / 100)
  | .kellyFractionScale => (5 / 100, 50 / 100)
  | .trailingStopArmPct => (5 / 1000, 8 / 100)
  | .trailingStopGivebackFrac => (1 / 10, 8 / 10)
  | .stalePositionMaxAgeSeconds => (1800, 259200)
  | .stalePositionPnlBandPct => (0, 5 / 100)
  | .llmCallDelayMs => (0, 2000)

/-- A value inside the bounds of its parameter. -/
def WithinBounds (parameter : Parameter) (value : ℚ) : Prop :=
  (paramBounds parameter).1 ≤ value ∧ value ≤ (paramBounds parameter).2

instance (parameter : Parameter) (value : ℚ) : Decidable (WithinBounds parameter value) :=
  inferInstanceAs (Decidable (_ ∧ _))

/-- Values of the tunable constants in a running process. -/
abbrev Constants := Parameter → ℚ

/-- The hand-authored defaults. -/
def defaultConstants : Constants
  | .signalConfidenceMinGate => 50 / 100
  | .executionDecisionThreshold => 55 / 100
  | .executionDecisionThresholdMemory => 55 / 100
  | .stopLossPct => 5 / 100
  | .takeProfitPct => 10 / 100
  | .maxRiskPerTradePct => 15 / 1000
  | .kellyFractionScale => 25 / 100
  | .trailingStopArmPct => 3 / 100
  | .trailingStopGivebackFrac => 40 / 100
  | .stalePositionMaxAgeSeconds => 14400
  | .stalePositionPnlBandPct => 1 / 100
  | .llmCallDelayMs => 200

/-- An override that survived `sanitize_overrides`. -/
structure ParamOverride where
  /-- Parameter set. -/
  parameter : Parameter
  /-- Value it is set to. -/
  value : ℚ
  /-- The value passed the safe-bounds validation. -/
  within : WithinBounds parameter value

/-- `_apply_param_overrides`: lay the overrides over the defaults. -/
def applyParamOverrides (overrides : List ParamOverride) : Constants :=
  overrides.foldl (fun constants entry => Function.update constants entry.parameter entry.value)
    defaultConstants

/-- Every default passes its own check. -/
theorem defaultConstants_within (parameter : Parameter) :
    WithinBounds parameter (defaultConstants parameter) := by
  cases parameter <;> norm_num [WithinBounds, paramBounds, defaultConstants]

theorem foldl_override_within (overrides : List ParamOverride) (constants : Constants)
    (start : ∀ parameter, WithinBounds parameter (constants parameter)) (parameter : Parameter) :
    WithinBounds parameter
      (overrides.foldl (fun constants entry =>
        Function.update constants entry.parameter entry.value) constants parameter) := by
  induction overrides generalizing constants with
  | nil => exact start parameter
  | cons entry overrides induction =>
      apply induction
      intro other
      by_cases same : other = entry.parameter
      · subst same
        simpa using entry.within
      · simpa [Function.update_of_ne same] using start other

/-- A running process never holds a tunable outside its bounds. -/
theorem applyParamOverrides_within (overrides : List ParamOverride) (parameter : Parameter) :
    WithinBounds parameter (applyParamOverrides overrides parameter) :=
  foldl_override_within overrides defaultConstants defaultConstants_within parameter

/-! ## Constants outside the allowlist -/

/-- `RISK_OFF_STOP_LOSS_PCT`. -/
def riskOffStopLossPct : ℚ := 3 / 100

/-- `RISK_OFF_TAKE_PROFIT_PCT`. -/
def riskOffTakeProfitPct : ℚ := 6 / 100

/-- `DAILY_LOSS_LIMIT_PCT`. -/
def dailyLossLimitPct : ℚ := 2 / 100

/-- `RISK_OFF_DAILY_LOSS_LIMIT_PCT`. -/
def riskOffDailyLossLimitPct : ℚ := 15 / 1000

/-- `RISK_OFF_SIZE_MULTIPLIER`. -/
def riskOffSizeMultiplier : ℚ := 5 / 10

/-- `RISK_OFF_MIN_CONFIDENCE`. -/
def riskOffMinConfidence : ℚ := 35 / 100

/-- `RISK_OFF_EXECUTION_DECISION_THRESHOLD`. -/
def riskOffExecutionDecisionThreshold : ℚ := 65 / 100

/-- `RISK_ON_BUY_THRESHOLD_DELTA`. -/
def riskOnBuyThresholdDelta : ℚ := 5 / 100

/-- `MIN_RR_RATIO`. -/
def minRrRatio : ℚ := 2

/-- `DEFAULT_PAPER_CASH`. -/
def defaultPaperCash : ℚ := 100000

/-- `LARGE_ORDER_THRESHOLD`: quantity above which an order gets a slicing plan. -/
def largeOrderThreshold : ℚ := 10

/-- `SLIPPAGE_PCT_PER_SIDE`. -/
def slippagePctPerSide : ℚ := 5 / 10000

/-- `COOLING_OFF_WINDOW`. -/
def coolingOffWindow : ℕ := 5

/-- `COOLING_OFF_DECAY`. -/
def coolingOffDecay : ℚ := 7 / 10

/-- `REDIS_RECENT_OUTCOMES_MAXLEN`. -/
def recentOutcomesMaxlen : ℕ := 10

/-- `DLQ_MAX_RETRIES`. -/
def dlqMaxRetries : ℕ := 3

end TradingControl
