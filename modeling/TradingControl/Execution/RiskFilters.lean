import Mathlib.Algebra.Order.BigOperators.Group.List
import Mathlib.Algebra.Order.Field.Basic
import Mathlib.Tactic.FieldSimp
import TradingControl.Execution.DecisionUtils
import TradingControl.Python.Rounding

/-!
# Risk filters

Position sizes by a fractional Kelly criterion, the score of recent losses and the relative strength
index.  Each is a formula with guards in front of its divisions, rounded at the end.
-/

namespace TradingControl
namespace RiskFilters

open Python

/-! ## Position sizes -/

def fullKelly (winProb winFraction lossFraction : ℚ) : ℚ :=
  let b := winFraction / lossFraction
  (winProb * b - (1 - winProb)) / b

/-- `compute_kelly_size`. -/
def computeKellySize (winProb winFraction lossFraction kellyScale maxRiskPct : ℚ) : ℚ :=
  if winFraction ≤ 0 ∨ lossFraction ≤ 0 ∨ winProb ≤ 0 then 0
  else if fullKelly winProb winFraction lossFraction ≤ 0 then 0
  else
    roundHalfEven 6 (min (fullKelly winProb winFraction lossFraction * kellyScale) maxRiskPct)

/-- Take profit at the least reward for the risk. -/
def effectiveTakeProfit (stopLossPct takeProfitPct : ℚ) : ℚ := max takeProfitPct (stopLossPct * 2)

/-- `compute_dynamic_position_size`. -/
def computeDynamicPositionSize
    (confidence stopLossPct takeProfitPct kellyScale maxRiskPct : ℚ) : ℚ :=
  if confidence ≤ 0 ∨ stopLossPct ≤ 0 then 0
  else
    computeKellySize confidence (effectiveTakeProfit stopLossPct takeProfitPct) stopLossPct
      kellyScale maxRiskPct

/-- The size that a Kelly fraction gets. -/
def sizeOf (kellyScale maxRiskPct full : ℚ) : ℚ :=
  if full ≤ 0 then 0 else roundHalfEven 6 (min (full * kellyScale) maxRiskPct)

section

variable {confidence stopLossPct takeProfitPct kellyScale maxRiskPct : ℚ}

theorem effectiveTakeProfit_pos (risk : 0 < stopLossPct) :
    0 < effectiveTakeProfit stopLossPct takeProfitPct :=
  lt_max_of_lt_right (by linarith)

theorem computeDynamicPositionSize_eq (confident : 0 < confidence) (risk : 0 < stopLossPct) :
    computeDynamicPositionSize confidence stopLossPct takeProfitPct kellyScale maxRiskPct =
      sizeOf kellyScale maxRiskPct
        (fullKelly confidence (effectiveTakeProfit stopLossPct takeProfitPct) stopLossPct) := by
  have open₁ : ¬(confidence ≤ 0 ∨ stopLossPct ≤ 0) := by
    rw [not_or, not_le, not_le]
    exact ⟨confident, risk⟩
  have open₂ : ¬(effectiveTakeProfit stopLossPct takeProfitPct ≤ 0 ∨ stopLossPct ≤ 0 ∨
      confidence ≤ 0) := by
    rw [not_or, not_or, not_le, not_le, not_le]
    exact ⟨effectiveTakeProfit_pos risk, risk, confident⟩
  rw [computeDynamicPositionSize, if_neg open₁, computeKellySize, if_neg open₂, sizeOf]

theorem sizeOf_nonneg (scale : 0 ≤ kellyScale) (cap : 0 ≤ maxRiskPct) (full : ℚ) :
    0 ≤ sizeOf kellyScale maxRiskPct full := by
  rw [sizeOf]
  split_ifs with none
  · exact le_rfl
  · exact roundHalfEven_nonneg (le_min (mul_nonneg (not_le.mp none).le scale) cap)

/-- A cap of at most six decimals is not rounded. -/
theorem sizeOf_le (decimals : ∃ n : ℕ, maxRiskPct = n / 10 ^ 6) (full : ℚ) :
    sizeOf kellyScale maxRiskPct full ≤ maxRiskPct := by
  obtain ⟨n, rfl⟩ := decimals
  rw [sizeOf]
  split_ifs with none
  · positivity
  · calc roundHalfEven 6 (min (full * kellyScale) (n / 10 ^ 6))
        ≤ roundHalfEven 6 (n / 10 ^ 6) := roundHalfEven_mono (min_le_right _ _)
      _ = n / 10 ^ 6 := roundHalfEven_decimal 6 n

theorem sizeOf_mono (scale : 0 ≤ kellyScale) (cap : 0 ≤ maxRiskPct) {less more : ℚ}
    (order : less ≤ more) :
    sizeOf kellyScale maxRiskPct less ≤ sizeOf kellyScale maxRiskPct more := by
  by_cases none : less ≤ 0
  · rw [sizeOf, if_pos none]
    exact sizeOf_nonneg scale cap more
  · have some : ¬more ≤ 0 := not_le.mpr ((not_le.mp none).trans_le order)
    rw [sizeOf, sizeOf, if_neg none, if_neg some]
    exact roundHalfEven_mono (min_le_min_right _ (mul_le_mul_of_nonneg_right order scale))

theorem fullKelly_eq {winProb winFraction lossFraction : ℚ} (win : 0 < winFraction)
    (loss : 0 < lossFraction) :
    fullKelly winProb winFraction lossFraction =
      winProb - (1 - winProb) * (lossFraction / winFraction) := by
  rw [fullKelly]
  field_simp

theorem fullKelly_mono_prob {low high winFraction lossFraction : ℚ} (win : 0 < winFraction)
    (loss : 0 < lossFraction) (order : low ≤ high) :
    fullKelly low winFraction lossFraction ≤ fullKelly high winFraction lossFraction := by
  rw [fullKelly_eq win loss, fullKelly_eq win loss]
  have ratio : 0 < lossFraction / winFraction := div_pos loss win
  have scaled := mul_le_mul_of_nonneg_right order ratio.le
  linarith

theorem fullKelly_mono_win {winProb low high lossFraction : ℚ} (win : 0 < low)
    (loss : 0 < lossFraction) (likely : winProb ≤ 1) (order : low ≤ high) :
    fullKelly winProb low lossFraction ≤ fullKelly winProb high lossFraction := by
  rw [fullKelly_eq win loss, fullKelly_eq (win.trans_le order) loss]
  have ratio : lossFraction / high ≤ lossFraction / low :=
    div_le_div_of_nonneg_left loss.le win order
  have scaled := mul_le_mul_of_nonneg_left ratio (sub_nonneg.mpr likely)
  linarith

/-- What a position size keeps to, for confidences up to one. -/
structure SizeLaw (confidence stopLossPct takeProfitPct kellyScale maxRiskPct : ℚ) : Prop where
  nonneg : 0 ≤
    computeDynamicPositionSize confidence stopLossPct takeProfitPct kellyScale maxRiskPct
  capped : computeDynamicPositionSize confidence stopLossPct takeProfitPct kellyScale maxRiskPct ≤
    maxRiskPct
  confident : ∀ higher, confidence ≤ higher → higher ≤ 1 →
    computeDynamicPositionSize confidence stopLossPct takeProfitPct kellyScale maxRiskPct ≤
      computeDynamicPositionSize higher stopLossPct takeProfitPct kellyScale maxRiskPct
  rewarded : ∀ higher, takeProfitPct ≤ higher →
    computeDynamicPositionSize confidence stopLossPct takeProfitPct kellyScale maxRiskPct ≤
      computeDynamicPositionSize confidence stopLossPct higher kellyScale maxRiskPct
  unfavourable :
    fullKelly confidence (effectiveTakeProfit stopLossPct takeProfitPct) stopLossPct ≤ 0 →
      computeDynamicPositionSize confidence stopLossPct takeProfitPct kellyScale maxRiskPct = 0

theorem computeDynamicPositionSize_guarded (guarded : confidence ≤ 0 ∨ stopLossPct ≤ 0) :
    computeDynamicPositionSize confidence stopLossPct takeProfitPct kellyScale maxRiskPct = 0 :=
  if_pos guarded

theorem computeDynamicPositionSize_nonneg (scale : 0 ≤ kellyScale) (cap : 0 ≤ maxRiskPct) :
    0 ≤ computeDynamicPositionSize confidence stopLossPct takeProfitPct kellyScale maxRiskPct := by
  by_cases guarded : confidence ≤ 0 ∨ stopLossPct ≤ 0
  · rw [computeDynamicPositionSize_guarded guarded]
  · rw [not_or, not_le, not_le] at guarded
    rw [computeDynamicPositionSize_eq guarded.1 guarded.2]
    exact sizeOf_nonneg scale cap _

theorem sizeLaw (likely : confidence ≤ 1) (scale : 0 ≤ kellyScale)
    (decimals : ∃ n : ℕ, maxRiskPct = n / 10 ^ 6) :
    SizeLaw confidence stopLossPct takeProfitPct kellyScale maxRiskPct := by
  have cap : 0 ≤ maxRiskPct := by
    obtain ⟨n, rfl⟩ := decimals
    positivity
  by_cases guarded : confidence ≤ 0 ∨ stopLossPct ≤ 0
  · have zero : computeDynamicPositionSize confidence stopLossPct takeProfitPct kellyScale
        maxRiskPct = 0 := computeDynamicPositionSize_guarded guarded
    constructor
    · rw [zero]
    · rwa [zero]
    · intro higher _ _
      rw [zero]
      exact computeDynamicPositionSize_nonneg scale cap
    · intro higher _
      rw [zero]
      exact computeDynamicPositionSize_nonneg scale cap
    · exact fun _ => zero
  · rw [not_or, not_le, not_le] at guarded
    obtain ⟨confident, risk⟩ := guarded
    have win : 0 < effectiveTakeProfit stopLossPct takeProfitPct := effectiveTakeProfit_pos risk
    constructor
    · exact computeDynamicPositionSize_nonneg scale cap
    · rw [computeDynamicPositionSize_eq confident risk]
      exact sizeOf_le decimals _
    · intro higher order _
      rw [computeDynamicPositionSize_eq confident risk,
        computeDynamicPositionSize_eq (confident.trans_le order) risk]
      exact sizeOf_mono scale cap (fullKelly_mono_prob win risk order)
    · intro higher order
      rw [computeDynamicPositionSize_eq confident risk,
        computeDynamicPositionSize_eq confident risk]
      have reward : effectiveTakeProfit stopLossPct takeProfitPct ≤
          effectiveTakeProfit stopLossPct higher := max_le_max_right _ order
      exact sizeOf_mono scale cap (fullKelly_mono_win win risk likely reward)
    · intro unfavourable
      rw [computeDynamicPositionSize_eq confident risk, sizeOf, if_pos unfavourable]

end

/-! ## Recent losses -/

section

variable {decay : ℚ}

theorem coolingOffWeights_cons (decay weight outcome : ℚ) (older : List ℚ) :
    (coolingOffWeights decay weight (outcome :: older)).2 =
      (if outcome < 0 then weight else 0) + (coolingOffWeights decay (weight * decay) older).2 := by
  rw [coolingOffWeights]
  dsimp only
  split_ifs
  · rfl
  · exact (zero_add _).symm

/-- The losses among more recent outcomes and among older ones add up. -/
theorem coolingOffWeights_append (decay weight : ℚ) (newer older : List ℚ) :
    (coolingOffWeights decay weight (newer ++ older)).2 =
      (coolingOffWeights decay weight newer).2 +
        (coolingOffWeights decay (weight * decay ^ newer.length) older).2 := by
  induction newer generalizing weight with
  | nil => simp [coolingOffWeights]
  | cons outcome newer induction =>
      have powers : weight * decay * decay ^ newer.length =
          weight * decay ^ (outcome :: newer).length := by
        rw [List.length_cons, pow_succ]
        ring
      rw [List.cons_append, coolingOffWeights_cons, coolingOffWeights_cons, induction, powers,
        add_assoc]

theorem coolingOffWeights_bounds (positive : 0 < decay) {weight : ℚ} (some : 0 < weight)
    (outcomes : List ℚ) :
    0 ≤ (coolingOffWeights decay weight outcomes).2 ∧
      (coolingOffWeights decay weight outcomes).2 ≤
        (coolingOffWeights decay weight outcomes).1 := by
  induction outcomes generalizing weight with
  | nil => simp [coolingOffWeights]
  | cons outcome older induction =>
      have ⟨below, above⟩ := induction (mul_pos some positive)
      rw [coolingOffWeights]
      split_ifs
      · exact ⟨by positivity, by simpa using above⟩
      · exact ⟨below, by simp only; linarith⟩

/-- The whole weight is a matter of how many outcomes there are. -/
theorem coolingOffWeights_total (decay weight : ℚ) {first second : List ℚ}
    (same : first.length = second.length) :
    (coolingOffWeights decay weight first).1 = (coolingOffWeights decay weight second).1 := by
  induction first generalizing weight second with
  | nil =>
      rw [List.length_nil] at same
      rw [List.eq_nil_of_length_eq_zero same.symm]
  | cons outcome first induction =>
      cases second with
      | nil => cases same
      | cons other second =>
          rw [coolingOffWeights, coolingOffWeights]
          exact congrArg (weight + ·) (induction (weight * decay) (Nat.succ.inj same))

/-- As many outcomes with no less weight of losses have no lower score. -/
theorem coolingOffScore_mono (positive : 0 < decay) {first second : List ℚ}
    (same : first.length = second.length)
    (heavier : (coolingOffWeights decay 1 first.reverse).2 ≤
      (coolingOffWeights decay 1 second.reverse).2) :
    coolingOffScore first decay ≤ coolingOffScore second decay := by
  have total : (coolingOffWeights decay 1 first.reverse).1 =
      (coolingOffWeights decay 1 second.reverse).1 :=
    coolingOffWeights_total decay 1 (by rw [List.length_reverse, List.length_reverse, same])
  have ⟨below, above⟩ := coolingOffWeights_bounds positive one_pos second.reverse
  rw [coolingOffScore, coolingOffScore]
  dsimp only
  rw [total]
  split_ifs
  · exact le_rfl
  · exact roundHalfEven_mono (div_le_div_of_nonneg_right heavier (below.trans above))

/-- An outcome that turns into a loss adds the weight of its place. -/
theorem coolingOffWeights_turned (before after : List ℚ) {outcome loss : ℚ} (won : 0 ≤ outcome)
    (lost : loss < 0) :
    (coolingOffWeights decay 1 (before ++ loss :: after).reverse).2 =
      (coolingOffWeights decay 1 (before ++ outcome :: after).reverse).2 +
        decay ^ after.length := by
  have reversed (value : ℚ) : (before ++ value :: after).reverse =
      after.reverse ++ value :: before.reverse := by simp
  rw [reversed, reversed, coolingOffWeights_append, coolingOffWeights_append,
    coolingOffWeights_cons, coolingOffWeights_cons, if_pos lost, if_neg (not_lt.mpr won),
    List.length_reverse, one_mul]
  ring

/-- What the score of recent losses keeps to. -/
structure CoolingOffLaw (decay : ℚ) : Prop where
  bounded : ∀ outcomes, 0 ≤ coolingOffScore outcomes decay ∧ coolingOffScore outcomes decay ≤ 1
  losing : ∀ before after outcome loss, 0 ≤ outcome → loss < 0 →
    coolingOffScore (before ++ outcome :: after) decay ≤
      coolingOffScore (before ++ loss :: after) decay
  recent : ∀ oldest between newest older newer olderLoss newerLoss, 0 ≤ older → 0 ≤ newer →
    olderLoss < 0 → newerLoss < 0 →
      coolingOffScore (oldest ++ olderLoss :: (between ++ newer :: newest)) decay ≤
        coolingOffScore (oldest ++ older :: (between ++ newerLoss :: newest)) decay

theorem coolingOffLaw (positive : 0 < decay) (fading : decay ≤ 1) : CoolingOffLaw decay := by
  constructor
  · intro outcomes
    have ⟨below, above⟩ := coolingOffWeights_bounds positive one_pos outcomes.reverse
    rw [coolingOffScore]
    dsimp only
    split_ifs
    · exact ⟨le_rfl, zero_le_one⟩
    · exact ⟨roundHalfEven_nonneg (div_nonneg below (below.trans above)),
        roundHalfEven_le_one (div_le_one_of_le₀ above (below.trans above))⟩
  · intro before after outcome loss won lost
    apply coolingOffScore_mono positive (by simp)
    rw [coolingOffWeights_turned before after won lost]
    exact le_add_of_nonneg_right (by positivity)
  · intro oldest between newest older newer olderLoss newerLoss olderWon newerWon olderLost
      newerLost
    apply coolingOffScore_mono positive (by simp)
    have late : oldest ++ older :: (between ++ newerLoss :: newest) =
        (oldest ++ older :: between) ++ newerLoss :: newest := by simp
    have kept : (oldest ++ older :: between) ++ newer :: newest =
        oldest ++ older :: (between ++ newer :: newest) := by simp
    rw [coolingOffWeights_turned oldest _ olderWon olderLost, late,
      coolingOffWeights_turned _ newest newerWon newerLost, kept]
    have weights : decay ^ (between ++ newer :: newest).length ≤ decay ^ newest.length := by
      apply pow_le_pow_of_le_one positive.le fading
      rw [List.length_append, List.length_cons]
      omega
    exact add_le_add_right weights _

end

/-! ## Relative strength -/

/-- `prices[i] - prices[i - 1]`. -/
def moves (prices : List ℚ) : List ℚ :=
  List.zipWith (fun earlier later => later - earlier) prices prices.tail

def gain (delta : ℚ) : ℚ := if 0 ≤ delta then delta else 0

def loss (delta : ℚ) : ℚ := if 0 ≤ delta then 0 else |delta|

/-- The index of an average gain and an average loss. -/
def rsiOf (avgGain avgLoss : ℚ) : ℚ :=
  if avgGain = 0 ∧ avgLoss = 0 then 50
  else if avgLoss = 0 then 100
  else roundHalfEven 4 (100 - 100 / (1 + avgGain / avgLoss))

/-- `compute_rsi`, for a positive period. -/
def computeRsi (prices : List ℚ) (period : ℕ) : Option ℚ :=
  if prices.length < period + 1 then none
  else
    let avgGain := (lastItems period ((moves prices).map gain)).sum / period
    let avgLoss := (lastItems period ((moves prices).map loss)).sum / period
    some (rsiOf avgGain avgLoss)

theorem gain_neg (delta : ℚ) : gain (-delta) = loss delta := by
  rw [gain, loss]
  rcases lt_trichotomy delta 0 with down | rfl | up
  · rw [if_pos (neg_nonneg.mpr down.le), if_neg (not_le.mpr down), abs_of_neg down]
  · simp
  · rw [if_neg (by linarith), if_pos up.le]

theorem loss_neg (delta : ℚ) : loss (-delta) = gain delta := by
  rw [← gain_neg, neg_neg]

theorem gain_nonneg (delta : ℚ) : 0 ≤ gain delta := by
  rw [gain]
  split_ifs with up
  · exact up
  · exact le_rfl

theorem loss_nonneg (delta : ℚ) : 0 ≤ loss delta := by
  rw [← gain_neg]
  exact gain_nonneg _

section

variable {avgGain avgLoss : ℚ}

/-- The share of the gains, in percent. -/
theorem strength_eq (gains : 0 ≤ avgGain) (losses : 0 < avgLoss) :
    100 - 100 / (1 + avgGain / avgLoss) = 100 * (avgGain / (avgGain + avgLoss)) := by
  have sum : avgGain + avgLoss ≠ 0 := by linarith
  have ratio : 1 + avgGain / avgLoss = (avgGain + avgLoss) / avgLoss := by
    rw [add_div, div_self losses.ne']
    ring
  rw [ratio, div_div_eq_mul_div, eq_comm, ← mul_div_assoc, eq_sub_iff_add_eq, ← add_div,
    ← mul_add, mul_div_cancel_right₀ _ sum]

theorem rsiOf_bounds (gains : 0 ≤ avgGain) (losses : 0 ≤ avgLoss) :
    0 ≤ rsiOf avgGain avgLoss ∧ rsiOf avgGain avgLoss ≤ 100 := by
  rw [rsiOf]
  split_ifs with flat none
  · norm_num
  · norm_num
  · have lost : 0 < avgLoss := lt_of_le_of_ne losses (Ne.symm none)
    have whole : avgGain / (avgGain + avgLoss) ≤ 1 :=
      div_le_one_of_le₀ (by linarith) (by linarith)
    have part : 0 ≤ avgGain / (avgGain + avgLoss) := div_nonneg gains (by linarith)
    rw [strength_eq gains lost]
    constructor
    · exact roundHalfEven_nonneg (by linarith)
    · have rounded := @roundHalfEven_mono 4 (100 * (avgGain / (avgGain + avgLoss))) (100 : ℤ)
        (by push_cast; linarith)
      rw [roundHalfEven_intCast] at rounded
      exact_mod_cast rounded

theorem rsiOf_mirrored (gains : 0 ≤ avgGain) (losses : 0 ≤ avgLoss) :
    |rsiOf avgLoss avgGain - (100 - rsiOf avgGain avgLoss)| ≤ 1 / 10 ^ 4 := by
  rcases gains.eq_or_lt with rfl | gained
  · rcases losses.eq_or_lt with rfl | lost
    · norm_num [rsiOf]
    · norm_num [rsiOf, lost.ne']
  · rcases losses.eq_or_lt with rfl | lost
    · norm_num [rsiOf, gained.ne']
    · have sum : avgGain + avgLoss ≠ 0 := by linarith
      have shares : avgGain / (avgGain + avgLoss) + avgLoss / (avgLoss + avgGain) = 1 := by
        rw [add_comm avgLoss avgGain, ← add_div, div_self sum]
      have near := abs_le.mp (abs_roundHalfEven_sub_le 4 (100 * (avgGain / (avgGain + avgLoss))))
      have nearMirrored :=
        abs_le.mp (abs_roundHalfEven_sub_le 4 (100 * (avgLoss / (avgLoss + avgGain))))
      simp only [rsiOf, gained.ne', lost.ne', false_and, if_false, strength_eq gains lost,
        strength_eq losses gained]
      rw [abs_le]
      constructor <;> linarith

end

theorem length_moves (prices : List ℚ) : (moves prices).length = prices.length - 1 := by
  simp [moves]

theorem average_nonneg {values : List ℚ} (nonneg : ∀ value ∈ values, 0 ≤ value) (period : ℕ) :
    0 ≤ (lastItems period values).sum / period :=
  div_nonneg (List.sum_nonneg fun value member => nonneg value (List.mem_of_mem_drop member))
    (Nat.cast_nonneg period)

/-- What the index of a price list keeps to. -/
structure RsiLaw (prices : List ℚ) (period : ℕ) : Prop where
  bounded : ∀ rsi, computeRsi prices period = some rsi → 0 ≤ rsi ∧ rsi ≤ 100
  mirrored : ∀ mirror, moves mirror = (moves prices).map (-·) →
    ∀ rsi, computeRsi prices period = some rsi →
      ∃ mirroredRsi, computeRsi mirror period = some mirroredRsi ∧
        |mirroredRsi - (100 - rsi)| ≤ 1 / 10 ^ 4

theorem rsiLaw (prices : List ℚ) {period : ℕ} (positive : 1 ≤ period) : RsiLaw prices period := by
  have gains : ∀ value ∈ (moves prices).map gain, 0 ≤ value := by
    intro value member
    obtain ⟨delta, -, rfl⟩ := List.mem_map.mp member
    exact gain_nonneg delta
  have losses : ∀ value ∈ (moves prices).map loss, 0 ≤ value := by
    intro value member
    obtain ⟨delta, -, rfl⟩ := List.mem_map.mp member
    exact loss_nonneg delta
  constructor
  · intro rsi defined
    rw [computeRsi] at defined
    split_ifs at defined
    obtain rfl := Option.some.inj defined
    exact rsiOf_bounds (average_nonneg gains period) (average_nonneg losses period)
  · intro mirror negated rsi defined
    rw [computeRsi] at defined
    split_ifs at defined with short
    obtain rfl := Option.some.inj defined
    have same := congrArg List.length negated
    rw [List.length_map, length_moves, length_moves] at same
    have long : ¬mirror.length < period + 1 := by omega
    have swappedGains : (moves mirror).map gain = (moves prices).map loss := by
      rw [negated, List.map_map]
      exact List.map_congr_left fun delta _ => gain_neg delta
    have swappedLosses : (moves mirror).map loss = (moves prices).map gain := by
      rw [negated, List.map_map]
      exact List.map_congr_left fun delta _ => loss_neg delta
    refine ⟨_, by rw [computeRsi, if_neg long, swappedGains, swappedLosses], ?_⟩
    exact rsiOf_mirrored (average_nonneg gains period) (average_nonneg losses period)

/-! ## The filters together -/

/-- The filters obey their laws. -/
theorem riskFilters_lawful :
    (∀ confidence stopLossPct takeProfitPct kellyScale maxRiskPct : ℚ, 0 ≤ confidence →
      confidence ≤ 1 → 0 ≤ kellyScale → (∃ n : ℕ, maxRiskPct = n / 10 ^ 6) →
        SizeLaw confidence stopLossPct takeProfitPct kellyScale maxRiskPct) ∧
      (∀ decay : ℚ, 0 < decay → decay ≤ 1 → CoolingOffLaw decay) ∧
        ∀ (prices : List ℚ) (period : ℕ), 1 ≤ period → RsiLaw prices period :=
  ⟨fun _ _ _ _ _ _ likely scale decimals => sizeLaw likely scale decimals,
    fun _ positive fading => coolingOffLaw positive fading,
    fun prices _ positive => rsiLaw prices positive⟩

/-- The engine's own numbers are under the laws. -/
theorem riskFilters_lawful_defaults :
    SizeLaw (3 / 5) (1 / 50) (1 / 25) (1 / 4) (15 / 1000) ∧ CoolingOffLaw (7 / 10) ∧
      RsiLaw [100, 101, 99, 102] 2 :=
  ⟨riskFilters_lawful.1 _ _ _ _ _ (by norm_num) (by norm_num) (by norm_num)
      ⟨15000, by norm_num⟩,
    riskFilters_lawful.2.1 _ (by norm_num) (by norm_num), riskFilters_lawful.2.2 _ _ (by norm_num)⟩

end RiskFilters
end TradingControl
