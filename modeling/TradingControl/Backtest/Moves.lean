import Mathlib.Tactic.Positivity
import TradingControl.Backtest.Strategies

/-!
# Moves that stand out

The baseline measures a move by the deviation of the recent ones, the move itself among them.  A
move that is large enough stands out from any history: among twenty or more it adds its square to
their mean square at most once, and the threshold is lower than that.
-/

namespace TradingControl.Backtest

open Python

/-- The square root of a float, up to rounding. -/
structure SquareRoot where
  sqrt : ℚ → ℚ
  nonneg : ∀ x, 0 ≤ sqrt x
  sq_le : ∀ x, 0 ≤ x → sqrt x ^ 2 ≤ 2 * x

def referenceRoot : SquareRoot where
  sqrt := Reference.sqrt
  nonneg x := by
    rw [Reference.sqrt]
    positivity
  sq_le x nonneg := by
    have scaled : 0 ≤ x * 10 ^ 40 := by positivity
    have whole : ((⌊x * 10 ^ 40⌋.toNat : ℕ) : ℚ) ≤ x * 10 ^ 40 := by
      have floor : ((⌊x * 10 ^ 40⌋.toNat : ℕ) : ℤ) = ⌊x * 10 ^ 40⌋ :=
        Int.toNat_of_nonneg (Int.floor_nonneg.mpr scaled)
      exact_mod_cast (floor ▸ Int.floor_le (x * 10 ^ 40))
    have root : ((Nat.sqrt ⌊x * 10 ^ 40⌋.toNat : ℕ) : ℚ) ^ 2 ≤ (⌊x * 10 ^ 40⌋.toNat : ℕ) := by
      exact_mod_cast Nat.sqrt_le' _
    rw [Reference.sqrt, div_pow, div_le_iff₀ (by positivity)]
    linarith

/-! ## Signals -/

theorem tier_of_le {value momentum strong ceiling : ℚ} (moves : momentum ≤ value) :
    (tier value momentum strong ceiling).2.1 ≠ .low := by
  rw [tier]
  by_cases isStrong : strong ≤ value
  · rw [if_pos isStrong]
    exact SignalStrength.noConfusion
  · rw [if_neg isStrong, if_pos moves]
    exact SignalStrength.noConfusion

/-- A rise past both thresholds is bought. -/
theorem classifySignal_buy {pct : ℚ} {sigma : Option ℚ} (rises : momentumPct ≤ pct)
    (standsOut : ∀ deviation, sigma = some deviation → momentumSigma * deviation ≤ pct) :
    (classifySignal pct sigma).action = "buy" := by
  have positive : 0 < pct := lt_of_lt_of_le (by norm_num [momentumPct]) rises
  have size : |pct| = pct := abs_of_pos positive
  have bought : ∀ strength : SignalStrength, strength ≠ .low →
      (if strength = .low ∨ (.bullish : MarketDirection) = .neutral then "hold"
        else if (.bullish : MarketDirection) = .bullish then "buy" else "sell") = "buy" := by
    intro strength notLow
    rw [if_neg (by simpa using notLow), if_pos rfl]
  simp only [classifySignal, size, if_pos positive]
  cases sigma with
  | none => exact bought _ (tier_of_le rises)
  | some deviation =>
      refine bought _ ?_
      dsimp only
      by_cases floor : sigmaFloorPct ≤ deviation
      · rw [if_pos floor]
        have spread : 0 < deviation := lt_of_lt_of_le (by norm_num [sigmaFloorPct]) floor
        refine tier_of_le ?_
        rw [le_div_iff₀ spread]
        exact standsOut deviation rfl
      · rw [if_neg floor]
        exact tier_of_le rises

/-- The first price of a symbol is no move. -/
theorem baselineMomentum_first (sqrt : ℚ → ℚ) {bar : Bar} (still : bar.pct = 0)
    (alone : bar.history.length = 1) : baselineMomentum sqrt bar = "hold" := by
  have noSigma : computeReturnSigma sqrt bar.history = none := by
    rw [computeReturnSigma, alone]
    rfl
  rw [baselineMomentum, noSigma, still]
  decide +kernel

/-! ## Deviations -/

/-- The squares of some numbers. -/
def sumSq (values : List ℚ) : ℚ := (values.map fun value => value ^ 2).sum

theorem sumSq_nonneg (values : List ℚ) : 0 ≤ sumSq values := by
  refine List.sum_nonneg fun square member => ?_
  obtain ⟨value, -, rfl⟩ := List.mem_map.mp member
  exact sq_nonneg value

theorem sumSq_concat (values : List ℚ) (last : ℚ) :
    sumSq (values ++ [last]) = sumSq values + last ^ 2 := by
  simp [sumSq]

theorem sum_sq_sub (values : List ℚ) (centre : ℚ) :
    (values.map fun value => (value - centre) ^ 2).sum =
      sumSq values - 2 * centre * values.sum + values.length * centre ^ 2 := by
  induction values with
  | nil => simp [sumSq]
  | cons value values induction =>
      simp only [sumSq, List.map_cons, List.sum_cons, List.length_cons] at induction ⊢
      rw [induction]
      push_cast
      ring

/-- About the mean they are the smallest. -/
theorem sum_sq_sub_average_le {values : List ℚ} (some_ : values ≠ []) :
    (values.map fun value => (value - Learning.average values) ^ 2).sum ≤ sumSq values := by
  have count : (0 : ℚ) < values.length := by
    exact_mod_cast List.length_pos_iff.mpr some_
  have mean : (values.length : ℚ) * Learning.average values = values.sum := by
    rw [Learning.average]
    field_simp
  rw [sum_sq_sub, ← mean]
  nlinarith [sq_nonneg (Learning.average values)]

/-- The deviation of twenty moves or more. -/
theorem sq_sigma_le (root : SquareRoot) {prices : List ℚ} {sigma : ℚ}
    (measured : computeReturnSigma root.sqrt prices = some sigma) :
    0 ≤ sigma ∧ 10 * sigma ^ 2 ≤ sumSq (returns prices) := by
  rw [computeReturnSigma] at measured
  split at measured
  · cases measured
  dsimp only at measured
  split at measured
  · cases measured
  case isFalse enough =>
    obtain rfl := Option.some.inj measured
    refine ⟨root.nonneg _, ?_⟩
    have count : (20 : ℚ) ≤ (returns prices).length := by
      exact_mod_cast not_lt.mp enough
    have inhabited : returns prices ≠ [] := by
      intro empty
      rw [empty] at enough
      exact enough (by decide)
    set changes := returns prices
    have small := sum_sq_sub_average_le inhabited
    have squares : 0 ≤ (changes.map fun change => (change - Learning.average changes) ^ 2).sum := by
      refine List.sum_nonneg fun square member => ?_
      obtain ⟨change, -, rfl⟩ := List.mem_map.mp member
      exact sq_nonneg _
    have variance : Learning.average
        (changes.map fun change => (change - Learning.average changes) ^ 2) ≤
          sumSq changes / 20 := by
      rw [Learning.average, List.length_map]
      exact div_le_div₀ (sumSq_nonneg _) small (by norm_num) count
    have nonneg : 0 ≤ Learning.average
        (changes.map fun change => (change - Learning.average changes) ^ 2) := by
      rw [Learning.average]
      exact div_nonneg squares (Nat.cast_nonneg _)
    linarith [root.sq_le _ nonneg]

/-! ## A price that is bought -/

theorem returns_concat (prices : List ℚ) {prev : ℚ} (nonzero : prev ≠ 0) (price : ℚ) :
    returns (prices ++ [prev, price]) =
      returns (prices ++ [prev]) ++ [(price - prev) / prev * 100] := by
  induction prices with
  | nil => simp [returns, nonzero]
  | cons first prices induction =>
      cases prices with
      | nil => simp [returns, nonzero]
      | cons second prices =>
          simp only [List.cons_append, returns] at induction ⊢
          rw [induction, List.append_assoc]

/-- Whatever the prices so far, there is a next one that the baseline buys. -/
theorem exists_price_bought (root : SquareRoot) (prices : List ℚ) {prev : ℚ} (positive : 0 < prev) :
    ∃ price, 0 < price ∧ ∀ index, baselineMomentum root.sqrt {
      index
      price
      prevPrice := prev
      pct := (price - prev) / prev * 100
      history := prices ++ [prev, price] } = "buy" := by
  -- the move is larger than the squares of all moves before it
  set earlier := sumSq (returns (prices ++ [prev])) with isEarlier
  have nonneg : 0 ≤ earlier := sumSq_nonneg _
  refine ⟨prev * (1 + (earlier + 2) / 100), by positivity, fun index => ?_⟩
  have move : (prev * (1 + (earlier + 2) / 100) - prev) / prev * 100 = earlier + 2 := by
    field_simp
    ring
  rw [baselineMomentum]
  refine classifySignal_buy ?_ fun deviation measured => ?_
  · rw [move, momentumPct]
    linarith
  · obtain ⟨spread, bounded⟩ := sq_sigma_le root measured
    rw [returns_concat prices positive.ne', sumSq_concat, move, ← isEarlier] at bounded
    rw [move, momentumSigma]
    refine abs_le_of_sq_le_sq' ?_ (by positivity) |>.2
    nlinarith

end TradingControl.Backtest
