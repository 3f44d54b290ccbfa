import Mathlib.Tactic.Linarith
import TradingControl.Constants
import TradingControl.Python.Runtime

/-!
# Regime-aware risk posture

Every regime-conditional risk parameter is resolved here.  The stated invariant is that an explicit
risk-off regime only tightens and every other input yields the default.  The risk-off values are
fixed constants, so the invariant meets the overrides of the defaults they are compared with.
-/

namespace TradingControl
namespace RegimeRisk

open Python

/-- `regime_of`: the regime of a macro payload, `none` for anything but a dictionary. -/
def regimeOf : Value → Option Value
  | .dict entries => Value.get entries "regime"
  | _ => none

/-- `is_risk_off`. -/
def isRiskOff : Option Value → Bool
  | some regime => regime.isText "risk_off"
  | none => false

@[simp] theorem isRiskOff_none : isRiskOff none = false := rfl

/-- `is_risk_on`. -/
def isRiskOn : Option Value → Bool
  | some regime => regime.isText "risk_on"
  | none => false

/-- `buy_threshold`: the cut of a new long, eased in a risk-on regime. -/
def buyThreshold (regime : Option Value) (default momentum : ℚ) : ℚ :=
  if isRiskOn regime ∧ 0 ≤ momentum then max 0 (default - riskOnBuyThresholdDelta) else default

/-- `stop_loss_pct`. -/
def stopLossPct (constants : Constants) (regime : Option Value) (isLong : Bool) : ℚ :=
  if isLong && isRiskOff regime then riskOffStopLossPct else constants .stopLossPct

/-- `take_profit_pct`. -/
def takeProfitPct (constants : Constants) (regime : Option Value) (isLong : Bool) : ℚ :=
  if isLong && isRiskOff regime then riskOffTakeProfitPct else constants .takeProfitPct

/-- `daily_loss_limit_pct`. -/
def dailyLossLimit (regime : Option Value) : ℚ :=
  if isRiskOff regime then riskOffDailyLossLimitPct else dailyLossLimitPct

/-- `size_multiplier`. -/
def sizeMultiplier (regime : Option Value) (isLong : Bool) : ℚ :=
  if isLong && isRiskOff regime then riskOffSizeMultiplier else 1

/-- `min_confidence`. -/
def minConfidence (regime : Option Value) (default : ℚ) (isLong : Bool) : ℚ :=
  if isLong && isRiskOff regime then max default riskOffMinConfidence else default

/-- `execution_threshold`. -/
def executionThreshold (regime : Option Value) (default : ℚ) (isLong : Bool) : ℚ :=
  if isLong && isRiskOff regime then max default riskOffExecutionDecisionThreshold else default

/-- The six parameters that consumers resolve for one payload. -/
structure Posture where
  stopLoss : ℚ
  takeProfit : ℚ
  dailyLoss : ℚ
  size : ℚ
  confidence : ℚ
  execution : ℚ
deriving DecidableEq

/-- All six parameters under one regime, with the thresholds their callers pass in. -/
def posture (constants : Constants) (confidence execution : ℚ) (isLong : Bool)
    (regime : Option Value) : Posture where
  stopLoss := stopLossPct constants regime isLong
  takeProfit := takeProfitPct constants regime isLong
  dailyLoss := dailyLossLimit regime
  size := sizeMultiplier regime isLong
  confidence := minConfidence regime confidence isLong
  execution := executionThreshold regime execution isLong

/-- No limit is looser and no bar is lower in `tight` than in `loose`. -/
structure Posture.Tightens (tight loose : Posture) : Prop where
  stopLoss : tight.stopLoss ≤ loose.stopLoss
  takeProfit : tight.takeProfit ≤ loose.takeProfit
  dailyLoss : tight.dailyLoss ≤ loose.dailyLoss
  size : tight.size ≤ 1
  confidence : loose.confidence ≤ tight.confidence
  execution : loose.execution ≤ tight.execution

/-- The fail-safe invariant for one payload: it only tightens the default posture, and leaves it
alone unless it says risk-off. -/
def FailSafe (constants : Constants) (confidence execution : ℚ) (isLong : Bool) (macroPayload : Value) :
    Prop :=
  (posture constants confidence execution isLong (regimeOf macroPayload)).Tightens
      (posture constants confidence execution isLong none) ∧
    (isRiskOff (regimeOf macroPayload) = false →
      posture constants confidence execution isLong (regimeOf macroPayload) =
        posture constants confidence execution isLong none)

/-- Anything but an explicit risk-off regime yields the default posture. -/
theorem posture_of_not_riskOff (constants : Constants) (confidence execution : ℚ) (isLong : Bool)
    {regime : Option Value} (calm : isRiskOff regime = false) :
    posture constants confidence execution isLong regime =
      posture constants confidence execution isLong none := by
  simp [posture, stopLossPct, takeProfitPct, dailyLossLimit, sizeMultiplier, minConfidence,
    executionThreshold, calm]

/-- A short position has no long-only tightening; the daily-loss limit alone moves, downwards. -/
theorem posture_short_tightens (constants : Constants) (confidence execution : ℚ)
    (regime : Option Value) :
    (posture constants confidence execution false regime).Tightens
      (posture constants confidence execution false none) := by
  constructor <;>
    simp only [posture, stopLossPct, takeProfitPct, dailyLossLimit, sizeMultiplier, minConfidence,
      executionThreshold, Bool.false_and, Bool.false_eq_true, if_false, le_refl]
  cases isRiskOff regime <;>
    norm_num [riskOffDailyLossLimitPct, dailyLossLimitPct]

/-- Under an explicit risk-off regime a long is tightened exactly when the two overridable exits
are not already tighter than their risk-off constants. -/
theorem posture_riskOff_tightens_iff (constants : Constants) (confidence execution : ℚ)
    {regime : Option Value} (riskOff : isRiskOff regime = true) :
    (posture constants confidence execution true regime).Tightens
        (posture constants confidence execution true none) ↔
      riskOffStopLossPct ≤ constants .stopLossPct ∧
        riskOffTakeProfitPct ≤ constants .takeProfitPct := by
  constructor
  · intro tightens
    exact ⟨by simpa [posture, stopLossPct, riskOff] using tightens.stopLoss,
      by simpa [posture, takeProfitPct, riskOff] using tightens.takeProfit⟩
  · rintro ⟨stop, take⟩
    constructor
    · simpa [posture, stopLossPct, riskOff] using stop
    · simpa [posture, takeProfitPct, riskOff] using take
    · norm_num [posture, dailyLossLimit, riskOff, riskOffDailyLossLimitPct,
        dailyLossLimitPct]
    · norm_num [posture, sizeMultiplier, riskOff, riskOffSizeMultiplier]
    · simp [posture, minConfidence, riskOff]
    · simp [posture, executionThreshold, riskOff]

/-- The fail-safe invariant holds for a payload exactly when it does not tighten a long, or the
running stop-loss and take-profit are at least their risk-off constants. -/
theorem failSafe_iff (overrides : List ParamOverride) (confidence execution : ℚ) (isLong : Bool)
    (macroPayload : Value) :
    FailSafe (applyParamOverrides overrides) confidence execution isLong macroPayload ↔
      isLong = false ∨ isRiskOff (regimeOf macroPayload) = false ∨
        (3 / 100 ≤ applyParamOverrides overrides .stopLossPct ∧
          6 / 100 ≤ applyParamOverrides overrides .takeProfitPct) := by
  cases riskOff : isRiskOff (regimeOf macroPayload) with
  | false =>
      have same := posture_of_not_riskOff (applyParamOverrides overrides) confidence execution
        isLong riskOff
      simp only [FailSafe, riskOff, same, true_or, or_true, iff_true, implies_true, and_true]
      constructor <;> norm_num [posture, sizeMultiplier]
  | true =>
      cases isLong with
      | false =>
          simpa [FailSafe, riskOff] using
            posture_short_tightens (applyParamOverrides overrides) confidence execution
              (regimeOf macroPayload)
      | true =>
          simpa [FailSafe, riskOff, riskOffStopLossPct, riskOffTakeProfitPct] using
            posture_riskOff_tightens_iff (applyParamOverrides overrides) confidence execution
              riskOff

/-- A stop-loss override inside its bounds that the risk-off regime then loosens. -/
def tightStopOverride : ParamOverride where
  parameter := .stopLossPct
  value := 2 / 100
  within := by norm_num [WithinBounds, paramBounds]

/-- With the stop-loss tuned to 2 %, a risk-off regime widens it to 3 %. -/
theorem riskOff_loosens_tight_stop :
    ¬ FailSafe (applyParamOverrides [tightStopOverride]) (1 / 2) (55 / 100) true
      (.dict [("regime", .str "risk_off")]) := by
  intro safe
  have stop := safe.1.stopLoss
  norm_num [posture, stopLossPct, applyParamOverrides, tightStopOverride, regimeOf, Value.get,
    Value.isText, isRiskOff, riskOffStopLossPct] at stop

end RegimeRisk
end TradingControl
