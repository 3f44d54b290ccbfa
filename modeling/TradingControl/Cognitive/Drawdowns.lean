import TradingControl.Backtest.Engine
import TradingControl.Cognitive.Backtest
import TradingControl.Series.Drawdown

/-!
# Drawdowns

Three loops look for the deepest fall below a running peak: one over the totals of the returns of
the evaluated trades, two over an equity curve.  They start from different peaks, guard the division
differently and scale the fall differently.
-/

namespace TradingControl.Cognitive

open Python Series

/-! ## The loops -/

variable {peak : ℚ}

/-- The loop of the strategy backtest, in percent. -/
theorem drawdownFrom_eq (worst : ℚ) (peakPos : 0 < peak) (curve : List ℚ) :
    Backtest.drawdownFrom peak (worst * 100) curve =
      deepest relativeFall peak worst curve * 100 := by
  induction curve generalizing peak worst with
  | nil => rfl
  | cons equity curve induction =>
      have topPos : 0 < max peak equity := peakPos.trans_le (le_max_left _ _)
      have scaled : max (worst * 100) ((max peak equity - equity) / max peak equity * 100) =
          max worst (relativeFall (max peak equity) equity) * 100 :=
        (max_mul_of_nonneg _ _ (by norm_num)).symm
      rw [Backtest.drawdownFrom, if_pos topPos, scaled, deepest_cons]
      exact induction _ topPos

/-- The loop of the configuration backtest. -/
theorem maxDrawdown_eq (peakPos : 0 < peak) (curve : List ℚ) :
    maxDrawdown peak curve = deepest relativeFall peak 0 curve := by
  have carried : ∀ worst : ℚ, (curve.foldl (fun state value =>
      let peak := max state.1 value
      (peak, if peak ≠ 0 then max state.2 ((peak - value) / peak) else state.2)) (peak, worst)).2 =
        deepest relativeFall peak worst curve := by
    induction curve generalizing peak with
    | nil => exact fun _ => rfl
    | cons equity curve induction =>
        intro worst
        have topPos : 0 < max peak equity := peakPos.trans_le (le_max_left _ _)
        rw [List.foldl_cons, deepest_cons]
        simp only [if_pos topPos.ne']
        exact induction topPos _
  exact carried 0

/-! ## Where they are used -/

/-- `compute_learning_metrics` reports the fall as a negative number. -/
theorem maxDrawdown_computeLearningMetrics (sqrt : ℚ → ℚ)
    (evaluations : List Learning.TradeEvaluation) :
    (Learning.computeLearningMetrics sqrt evaluations).maxDrawdown =
      roundHalfEven 4 (-Series.maxDrawdown (evaluations.map (·.pnlPercent.getD 0))) := by
  cases evaluations with
  | nil => exact (roundHalfEven_zero 4).symm
  | cons evaluation evaluations => rfl

/-- `run_backtest` folds the curve that it returns. -/
theorem maxDrawdownPct_of_runBacktest {config : Backtest.BacktestConfig} {prices : List ℚ}
    {result : Backtest.BacktestResult} (returns : Backtest.runBacktest config prices = .ok result) :
    result.maxDrawdownPct =
      Backtest.drawdownFrom (result.equityCurve.headD 0) 0 result.equityCurve := by
  obtain ⟨ledger, -, summary⟩ := bind_eq_ok.mp returns
  obtain ⟨totalReturn, -, summary⟩ := bind_eq_ok.mp summary
  cases summary
  rfl

/-! ## What they measure -/

/-- The largest share of a peak that a curve loses. -/
def deepestShare (curve : List ℚ) : ℚ := deepest relativeFall (curve.headD 0) 0 curve

theorem deepestShare_nonneg (curve : List ℚ) : 0 ≤ deepestShare curve := worst_le_deepest

theorem isGreatest_deepestShare {curve : List ℚ} (positive : ∀ equity ∈ curve, 0 < equity)
    (nonempty : curve ≠ []) : IsGreatest (falls relativeFall curve) (deepestShare curve) := by
  obtain ⟨first, rest, rfl⟩ := List.exists_cons_of_ne_nil nonempty
  have greatest := isGreatest_falls deepens_relativeFall positive
  rwa [relativeFall_self] at greatest

theorem deepestShare_repeat (early : List ℚ) (equity : ℚ) (later : List ℚ) :
    deepestShare (early ++ equity :: equity :: later) =
      deepestShare (early ++ equity :: later) := by
  have sameStart : (early ++ equity :: equity :: later).headD 0 =
      (early ++ equity :: later).headD 0 := by
    cases early <;> rfl
  rw [deepestShare, deepestShare, sameStart]
  exact deepest_repeat early equity later

/-- Both loops over a curve find the share. -/
theorem drawdowns_eq {curve : List ℚ} (positive : ∀ equity ∈ curve, 0 < equity) :
    Backtest.drawdownFrom (curve.headD 0) 0 curve = deepestShare curve * 100 ∧
      maxDrawdownPct curve = roundHalfEven 4 (deepestShare curve * 100) := by
  cases curve with
  | nil => exact ⟨(zero_mul _).symm, rfl⟩
  | cons first rest =>
      have startPos : 0 < first := positive first List.mem_cons_self
      have engine := drawdownFrom_eq 0 startPos (first :: rest)
      rw [zero_mul] at engine
      refine ⟨engine, ?_⟩
      rw [maxDrawdownPct]
      exact congrArg (fun share => roundHalfEven 4 (share * 100))
        (maxDrawdown_eq startPos (first :: rest))

/-- The three loops measure one notion, over totals of returns and over an equity curve. -/
structure MeasuresDrawdown (pcts curve : List ℚ) : Prop where
  totals : IsGreatest (totalFalls pcts) (Series.maxDrawdown pcts)
  reported : ∀ (sqrt : ℚ → ℚ) (evaluations : List Learning.TradeEvaluation),
    evaluations.map (·.pnlPercent.getD 0) = pcts →
      (Learning.computeLearningMetrics sqrt evaluations).maxDrawdown =
        roundHalfEven 4 (-Series.maxDrawdown pcts)
  shares : curve ≠ [] → ∃ share, IsGreatest (falls relativeFall curve) share ∧
    Backtest.drawdownFrom (curve.headD 0) 0 curve = share * 100 ∧
      maxDrawdownPct curve = roundHalfEven 4 (share * 100)
  nothing : curve = [] →
    Backtest.drawdownFrom (curve.headD 0) 0 curve = 0 ∧ maxDrawdownPct curve = 0
  returned : ∀ config prices result, Backtest.runBacktest config prices = .ok result →
    result.equityCurve = curve →
      result.maxDrawdownPct = Backtest.drawdownFrom (curve.headD 0) 0 curve
  nonneg : 0 ≤ Series.maxDrawdown pcts ∧ 0 ≤ Backtest.drawdownFrom (curve.headD 0) 0 curve ∧
    0 ≤ maxDrawdownPct curve
  /-- An entry that is repeated in place changes neither fold over the curve. -/
  repeated : ∀ early equity later, curve = early ++ equity :: later →
    Backtest.drawdownFrom ((early ++ equity :: equity :: later).headD 0) 0
        (early ++ equity :: equity :: later) = Backtest.drawdownFrom (curve.headD 0) 0 curve ∧
      maxDrawdownPct (early ++ equity :: equity :: later) = maxDrawdownPct curve

theorem measuresDrawdown (pcts : List ℚ) {curve : List ℚ}
    (positive : ∀ equity ∈ curve, 0 < equity) : MeasuresDrawdown pcts curve := by
  obtain ⟨engine, gate⟩ := drawdowns_eq positive
  have percent : 0 ≤ deepestShare curve * 100 :=
    mul_nonneg (deepestShare_nonneg curve) (by norm_num)
  refine ⟨isGreatest_totalFalls pcts, ?_, ?_, ?_, ?_, ?_, ?_⟩
  · rintro sqrt evaluations rfl
    exact maxDrawdown_computeLearningMetrics sqrt evaluations
  · exact fun nonempty =>
      ⟨deepestShare curve, isGreatest_deepestShare positive nonempty, engine, gate⟩
  · rintro rfl
    exact ⟨rfl, by decide +kernel⟩
  · rintro config prices result returns rfl
    exact maxDrawdownPct_of_runBacktest returns
  · rw [engine, gate]
    exact ⟨maxDrawdown_nonneg pcts, percent, roundHalfEven_nonneg percent⟩
  · rintro early equity later rfl
    have again : ∀ value ∈ early ++ equity :: equity :: later, 0 < value := by
      intro value member
      refine positive value ?_
      simpa using member
    obtain ⟨engineAgain, gateAgain⟩ := drawdowns_eq again
    rw [engine, gate, engineAgain, gateAgain, deepestShare_repeat]
    exact ⟨rfl, rfl⟩

theorem measuresDrawdown_dip : MeasuresDrawdown [2, -3, 1] [100, 120, 90] :=
  measuresDrawdown [2, -3, 1] (by decide +kernel)

end TradingControl.Cognitive
