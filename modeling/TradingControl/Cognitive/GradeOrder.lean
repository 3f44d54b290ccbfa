import Mathlib.Tactic.GCongr
import Mathlib.Tactic.NormNum
import Mathlib.Order.Monotone.Odd
import TradingControl.Cognitive.Grading
import TradingControl.Python.Reference

/-!
# The order of the grades

What moves the grade of a trade up, and what moves it down.  All that is used of the hyperbolic
tangent is its order and its bounds.
-/

namespace TradingControl.Cognitive

open Python

/-! ## Letters -/

/-- The letters from the worst to the best. -/
def letterScale : List String :=
  ["F", "D-", "D", "D+", "C-", "C", "C+", "B-", "B", "B+", "A-", "A", "A+"]

/-- The place of a letter on the scale. -/
def letterRank (letter : String) : ℕ := letterScale.idxOf letter

/-- The modifier of a score within its letter, as a number. -/
def modifierRank (low score : ℚ) : ℕ :=
  if score - low ≥ 6667 / 1000 then 2 else if score - low < 3333 / 1000 then 0 else 1

/-- The place on the scale of a score from 0 to 100. -/
def scoreRank (score : ℚ) : ℕ :=
  if score < 60 then 0
  else if score ≥ 90 then 10 + modifierRank 90 score
  else if score ≥ 80 then 7 + modifierRank 80 score
  else if score ≥ 70 then 4 + modifierRank 70 score
  else 1 + modifierRank 60 score

theorem letterGrade_eq (score : ℚ) :
    letterGrade score ∈ letterScale ∧
      letterRank (letterGrade score) = scoreRank (clampScore score) := by
  rw [letterGrade, scoreRank]
  dsimp only [gradeWithin, modifierRank]
  split_ifs <;> decide

theorem modifierRank_le_two (low score : ℚ) : modifierRank low score ≤ 2 := by
  rw [modifierRank]
  split_ifs <;> omega

theorem modifierRank_mono (low : ℚ) : Monotone (modifierRank low) := by
  intro first second order
  rw [modifierRank, modifierRank]
  split_ifs <;> first | omega | linarith

theorem scoreRank_mono : Monotone scoreRank := by
  intro first second order
  have nineties := modifierRank_mono 90 order
  have eighties := modifierRank_mono 80 order
  have seventies := modifierRank_mono 70 order
  have sixties := modifierRank_mono 60 order
  have top80 := modifierRank_le_two 80 first
  have top70 := modifierRank_le_two 70 first
  have top60 := modifierRank_le_two 60 first
  rw [scoreRank, scoreRank]
  split_ifs <;> first | omega | linarith

theorem clampScore_mono : Monotone clampScore := fun _ _ order =>
  max_le_max le_rfl (min_le_min le_rfl order)

theorem clampScore_nonneg (score : ℚ) : 0 ≤ clampScore score := le_max_left _ _

theorem clampScore_le (score : ℚ) : clampScore score ≤ 100 :=
  max_le (by norm_num) (min_le_left _ _)

theorem letterRank_mono : Monotone fun score => letterRank (letterGrade score) := by
  intro first second order
  dsimp only
  rw [(letterGrade_eq first).2, (letterGrade_eq second).2]
  exact scoreRank_mono (clampScore_mono order)

/-! ## The blend -/

/-- The blend of the components of a trade. -/
def blend (direction risk execution timing : ℚ) : ℚ :=
  roundHalfEven 2 (roundHalfEven 2 direction * (40 / 100) + roundHalfEven 2 risk * (25 / 100) +
    roundHalfEven 2 execution * (15 / 100) + roundHalfEven 2 timing * (20 / 100))

theorem overallScore_eq (runtime : Runtime) (tradeId : String) (decisionScore : ℚ)
    (outcome : TradeOutcome) :
    (gradeTrade runtime tradeId decisionScore outcome).overallScore =
      blend (directionComponent decisionScore outcome.realizedPnlPct)
        (riskComponent runtime outcome.realizedPnlPct outcome.maxAdversePct)
        (executionComponent outcome.slippageBps)
        (timingComponent outcome.side outcome.entryPrice outcome.windowLow
          outcome.windowHigh) := by
  have weights : ["direction", "risk", "execution", "timing"].map
      (fun key => (tradeGradeWeights.lookup key).getD 0) =
        [40 / 100, 25 / 100, 15 / 100, 20 / 100] := by
    rfl
  simp only [List.map_cons, List.map_nil, List.cons.injEq, and_true] at weights
  obtain ⟨direction, risk, execution, timing⟩ := weights
  simp only [gradeTrade, blend, List.map_cons, List.map_nil, List.sum_cons, List.sum_nil, direction,
    risk, execution, timing, add_zero, add_assoc]

theorem blend_mono {direction₁ direction₂ risk₁ risk₂ execution₁ execution₂ timing₁ timing₂ : ℚ}
    (direction : direction₁ ≤ direction₂) (risk : risk₁ ≤ risk₂)
    (execution : execution₁ ≤ execution₂) (timing : timing₁ ≤ timing₂) :
    blend direction₁ risk₁ execution₁ timing₁ ≤ blend direction₂ risk₂ execution₂ timing₂ := by
  refine roundHalfEven_mono ?_
  have direction := @roundHalfEven_mono 2 _ _ direction
  have risk := @roundHalfEven_mono 2 _ _ risk
  have execution := @roundHalfEven_mono 2 _ _ execution
  have timing := @roundHalfEven_mono 2 _ _ timing
  linarith

theorem blend_bounds {direction risk execution timing : ℚ}
    (directions : 0 ≤ direction ∧ direction ≤ 100) (risks : 0 ≤ risk ∧ risk ≤ 100)
    (executions : 0 ≤ execution ∧ execution ≤ 100) (timings : 0 ≤ timing ∧ timing ≤ 100) :
    0 ≤ blend direction risk execution timing ∧ blend direction risk execution timing ≤ 100 := by
  have worst : blend 0 0 0 0 = 0 := by simp [blend]
  have hundred : roundHalfEven 2 100 = 100 := by simpa using roundHalfEven_intCast 2 100
  have best : blend 100 100 100 100 = 100 := by
    rw [blend, hundred]
    norm_num [hundred]
  exact ⟨worst.ge.trans (blend_mono directions.1 risks.1 executions.1 timings.1),
    (blend_mono directions.2 risks.2 executions.2 timings.2).trans best.le⟩

/-! ## Components -/

theorem strength_bounds (decisionScore realizedPnlPct : ℚ) :
    0 ≤ 5 / 10 * min 1 (|realizedPnlPct| / 3) + 5 / 10 * min 1 (|decisionScore| / (5 / 10)) ∧
      5 / 10 * min 1 (|realizedPnlPct| / 3) + 5 / 10 * min 1 (|decisionScore| / (5 / 10)) ≤ 1 := by
  have move : 0 ≤ min 1 (|realizedPnlPct| / 3) := le_min zero_le_one (by positivity)
  have conviction : 0 ≤ min 1 (|decisionScore| / (5 / 10)) := le_min zero_le_one (by positivity)
  have moved := min_le_left 1 (|realizedPnlPct| / 3)
  have convinced := min_le_left 1 (|decisionScore| / (5 / 10))
  constructor <;> linarith

theorem directionComponent_bounds (decisionScore realizedPnlPct : ℚ) :
    0 ≤ directionComponent decisionScore realizedPnlPct ∧
      directionComponent decisionScore realizedPnlPct ≤ 100 := by
  have strength := strength_bounds decisionScore realizedPnlPct
  rw [directionComponent]
  dsimp only
  split_ifs <;> constructor <;> linarith

theorem directionComponent_gain (decisionScore : ℚ) {pnl : ℚ} (gain : 0 < pnl) :
    directionComponent decisionScore pnl =
      50 + 50 * (5 / 10 * min 1 (|pnl| / 3) + 5 / 10 * min 1 (|decisionScore| / (5 / 10))) := by
  rw [directionComponent, if_neg gain.ne', if_pos gain]

theorem directionComponent_loss (decisionScore : ℚ) {pnl : ℚ} (loss : pnl < 0) :
    directionComponent decisionScore pnl =
      50 - 50 * (5 / 10 * min 1 (|pnl| / 3) + 5 / 10 * min 1 (|decisionScore| / (5 / 10))) := by
  rw [directionComponent, if_neg loss.ne, if_neg loss.not_gt]

theorem min_one_third_mono {first second : ℚ} (order : |first| ≤ |second|) :
    min 1 (|first| / 3) ≤ min 1 (|second| / 3) :=
  min_le_min le_rfl (by linarith)

/-- The component jumps up on both sides of zero. -/
theorem directionComponent_mono (decisionScore : ℚ) :
    Monotone (directionComponent decisionScore) := by
  have even : directionComponent decisionScore 0 = 50 := if_pos rfl
  have gains : ∀ pnl, 0 < pnl → 50 ≤ directionComponent decisionScore pnl := by
    intro pnl gain
    have strength := strength_bounds decisionScore pnl
    rw [directionComponent_gain decisionScore gain]
    linarith
  have losses : ∀ pnl < 0, directionComponent decisionScore pnl ≤ 50 := by
    intro pnl loss
    have strength := strength_bounds decisionScore pnl
    rw [directionComponent_loss decisionScore loss]
    linarith
  intro first second order
  rcases lt_trichotomy second 0 with loss | rfl | gain
  · have lossToo := order.trans_lt loss
    have shorter := min_one_third_mono (abs_le_abs_of_nonpos loss.le order)
    rw [directionComponent_loss decisionScore loss, directionComponent_loss decisionScore lossToo]
    linarith
  · rcases order.lt_or_eq with loss | rfl
    · exact (losses first loss).trans even.ge
    · exact le_rfl
  · rcases lt_trichotomy first 0 with loss | rfl | gainToo
    · exact (losses first loss).trans (gains second gain)
    · exact even.le.trans (gains second gain)
    · have longer := min_one_third_mono (abs_le_abs_of_nonneg gainToo.le order)
      rw [directionComponent_gain decisionScore gain, directionComponent_gain decisionScore gainToo]
      linarith

theorem riskComponent_mono {runtime : Runtime} (rising : Monotone runtime.tanh)
    (maxAdversePct : ℚ) : Monotone fun pnl => riskComponent runtime pnl maxAdversePct := by
  intro first second order
  have ratios : first / (|maxAdversePct| + 5 / 10) ≤ second / (|maxAdversePct| + 5 / 10) := by
    gcongr
  have saturated := rising ratios
  refine clampScore_mono ?_
  linarith

theorem executionComponent_anti {first second : ℚ} (order : |first| ≤ |second|) :
    executionComponent second ≤ executionComponent first :=
  clampScore_mono (by linarith)

theorem timingComponent_bounds (side : String) (entryPrice windowLow windowHigh : ℚ) :
    0 ≤ timingComponent side entryPrice windowLow windowHigh ∧
      timingComponent side entryPrice windowLow windowHigh ≤ 100 := by
  rw [timingComponent]
  dsimp only
  split_ifs
  · norm_num
  · exact ⟨clampScore_nonneg _, clampScore_le _⟩
  · exact ⟨clampScore_nonneg _, clampScore_le _⟩

/-! ## A tangent that rises -/

/-- Chords of the tangent to one half and to one, and from there on a curve that stays below 1. -/
def chord (x : ℚ) : ℚ :=
  if x ≤ 1 / 2 then 2 * Reference.tanh (1 / 2) * x
  else if x ≤ 1 then
    Reference.tanh (1 / 2) + 2 * (Reference.tanh 1 - Reference.tanh (1 / 2)) * (x - 1 / 2)
  else 1 - (1 - Reference.tanh 1) / x

/-- A strictly increasing function that is the tangent at the multiples of one half up to one. -/
def chordTanh (x : ℚ) : ℚ := if 0 ≤ x then chord x else -chord (-x)

def chordRuntime : Runtime := { Reference.runtime with tanh := chordTanh }

theorem chord_constants : 0 < Reference.tanh (1 / 2) ∧
    Reference.tanh (1 / 2) < Reference.tanh 1 ∧ Reference.tanh 1 < 1 := by
  decide +kernel

theorem chord_nonneg_le_one {x : ℚ} (nonneg : 0 ≤ x) : 0 ≤ chord x ∧ chord x ≤ 1 := by
  obtain ⟨half, one, below⟩ := chord_constants
  rw [chord]
  generalize Reference.tanh (1 / 2) = low at *
  generalize Reference.tanh 1 = high at *
  split_ifs with near middle
  · constructor <;> nlinarith
  · constructor <;> nlinarith
  · have fraction : (1 - high) / x ≤ 1 := by
      rw [div_le_one₀ (by linarith)]
      linarith
    have positive : 0 ≤ (1 - high) / x := div_nonneg (by linarith) nonneg
    constructor <;> linarith

theorem chord_strictMonoOn : StrictMonoOn chord (Set.Ici 0) := by
  obtain ⟨half, one, below⟩ := chord_constants
  intro first nonneg second _ order
  rw [Set.mem_Ici] at nonneg
  rw [chord, chord]
  generalize Reference.tanh (1 / 2) = low at *
  generalize Reference.tanh 1 = high at *
  have far : ∀ x, 1 < x → high < 1 - (1 - high) / x := by
    intro x past
    have less : (1 - high) / x < 1 - high := div_lt_self (by linarith) past
    linarith
  split_ifs with near nearToo middleToo middle nearToo middleToo nearToo middleToo
  · nlinarith
  · nlinarith
  · have last := far second (not_le.mp middleToo)
    nlinarith
  · linarith
  · nlinarith
  · have last := far second (not_le.mp middleToo)
    nlinarith
  · linarith
  · linarith
  · have fractions : (1 - high) / second < (1 - high) / first := by
      apply div_lt_div_of_pos_left <;> linarith
    linarith

theorem chordTanh_neg (x : ℚ) : chordTanh (-x) = -chordTanh x := by
  have origin : chord 0 = 0 := by simp [chord]
  rw [chordTanh, chordTanh]
  rcases lt_trichotomy x 0 with negative | rfl | positive
  · rw [if_pos (neg_nonneg.mpr negative.le), if_neg negative.not_ge, neg_neg]
  · simp [origin]
  · rw [if_neg (by linarith), if_pos positive.le, neg_neg]

theorem chordTanh_strictMono : StrictMono chordTanh := by
  refine strictMono_of_odd_strictMonoOn_nonneg chordTanh_neg ?_
  intro first nonneg second nonnegToo order
  rw [chordTanh, chordTanh, if_pos (Set.mem_Ici.mp nonneg), if_pos (Set.mem_Ici.mp nonnegToo)]
  exact chord_strictMonoOn nonneg nonnegToo order

theorem abs_chordTanh_le_one (x : ℚ) : |chordTanh x| ≤ 1 := by
  rw [chordTanh]
  split_ifs with nonneg
  · have range := chord_nonneg_le_one nonneg
    rw [abs_of_nonneg range.1]
    exact range.2
  · have range := chord_nonneg_le_one (x := -x) (by linarith)
    rw [abs_neg, abs_of_nonneg range.1]
    exact range.2

/-! ## The grade of a trade -/

variable {runtime : Runtime}

theorem overallScore_bounds (runtime : Runtime) (tradeId : String) (decisionScore : ℚ)
    (outcome : TradeOutcome) :
    0 ≤ (gradeTrade runtime tradeId decisionScore outcome).overallScore ∧
      (gradeTrade runtime tradeId decisionScore outcome).overallScore ≤ 100 := by
  rw [overallScore_eq]
  exact blend_bounds (directionComponent_bounds _ _) ⟨clampScore_nonneg _, clampScore_le _⟩
    ⟨clampScore_nonneg _, clampScore_le _⟩ (timingComponent_bounds _ _ _ _)

theorem overallScore_mono_pnl (rising : Monotone runtime.tanh) (tradeId : String)
    (decisionScore : ℚ) (outcome : TradeOutcome) :
    Monotone fun pnl => (gradeTrade runtime tradeId decisionScore
      { outcome with realizedPnlPct := pnl }).overallScore := by
  intro first second order
  dsimp only
  rw [overallScore_eq, overallScore_eq]
  exact blend_mono (directionComponent_mono decisionScore order)
    (riskComponent_mono rising _ order) le_rfl le_rfl

theorem overallScore_anti_slippage (tradeId : String) (decisionScore : ℚ)
    (outcome : TradeOutcome) {first second : ℚ} (order : |first| ≤ |second|) :
    (gradeTrade runtime tradeId decisionScore
        { outcome with slippageBps := second }).overallScore ≤
      (gradeTrade runtime tradeId decisionScore
        { outcome with slippageBps := first }).overallScore := by
  rw [overallScore_eq, overallScore_eq]
  exact blend_mono le_rfl le_rfl (executionComponent_anti order) le_rfl

/-- The score of a trade is on the scale, rises with the profit, falls with the slippage, and a
better score has no worse letter. -/
theorem tradeGrades_ordered (runtime : Runtime) (rising : Monotone runtime.tanh)
    (tradeId : String) (decisionScore : ℚ) :
    (∀ outcome, 0 ≤ (gradeTrade runtime tradeId decisionScore outcome).overallScore ∧
      (gradeTrade runtime tradeId decisionScore outcome).overallScore ≤ 100) ∧
    (∀ outcome : TradeOutcome, Monotone fun pnl => (gradeTrade runtime tradeId decisionScore
      { outcome with realizedPnlPct := pnl }).overallScore) ∧
    (∀ (outcome : TradeOutcome) first second, |first| ≤ |second| →
      (gradeTrade runtime tradeId decisionScore
          { outcome with slippageBps := second }).overallScore ≤
        (gradeTrade runtime tradeId decisionScore
          { outcome with slippageBps := first }).overallScore) ∧
    (∀ score, letterGrade score ∈ letterScale) ∧
      Monotone fun score => letterRank (letterGrade score) :=
  ⟨overallScore_bounds runtime tradeId decisionScore,
    overallScore_mono_pnl rising tradeId decisionScore,
    fun outcome _ _ order => overallScore_anti_slippage tradeId decisionScore outcome order,
    fun score => (letterGrade_eq score).1, letterRank_mono⟩

/-- A trade that bought and gained one percent. -/
def boughtTrade : TradeOutcome where
  realizedPnl := 10
  realizedPnlPct := 1
  maxAdversePct := 1 / 2
  slippageBps := 2
  side := "buy"
  entryPrice := 101
  windowLow := 100
  windowHigh := 104

theorem tradeGrades_ordered_lossAndGain :
    (gradeTrade chordRuntime "t-1" (4 / 10)
        { boughtTrade with realizedPnlPct := -1 }).overallScore ≤
      (gradeTrade chordRuntime "t-1" (4 / 10)
        { boughtTrade with realizedPnlPct := 1 }).overallScore :=
  (tradeGrades_ordered chordRuntime chordTanh_strictMono.monotone "t-1" (4 / 10)).2.1 boughtTrade
    (show (-1 : ℚ) ≤ 1 by norm_num)

/-! ## Adverse excursions -/

/-- The trade with the worse excursion is graded no better. -/
def PainUnrewarded (runtime : Runtime) (tradeId : String) (decisionScore : ℚ)
    (outcome : TradeOutcome) (mild severe : ℚ) : Prop :=
  riskComponent runtime outcome.realizedPnlPct severe ≤
      riskComponent runtime outcome.realizedPnlPct mild ∧
    (gradeTrade runtime tradeId decisionScore
        { outcome with maxAdversePct := severe }).overallScore ≤
      (gradeTrade runtime tradeId decisionScore
        { outcome with maxAdversePct := mild }).overallScore

theorem riskComponent_anti_of_gain (rising : Monotone runtime.tanh) {pnl mild severe : ℚ}
    (gain : 0 ≤ pnl) (order : |mild| ≤ |severe|) :
    riskComponent runtime pnl severe ≤ riskComponent runtime pnl mild := by
  have ratios : pnl / (|severe| + 5 / 10) ≤ pnl / (|mild| + 5 / 10) := by gcongr
  have saturated := rising ratios
  refine clampScore_mono ?_
  linarith

/-- A tangent within its bounds leaves nothing to clamp. -/
theorem riskComponent_eq (bounded : ∀ x, |runtime.tanh x| ≤ 1) (pnl adverse : ℚ) :
    riskComponent runtime pnl adverse =
      50 + 50 * runtime.tanh (pnl / (|adverse| + 5 / 10)) := by
  have range := abs_le.mp (bounded (pnl / (|adverse| + 5 / 10)))
  rw [riskComponent, clampScore, min_eq_right (by linarith), max_eq_right (by linarith)]

theorem riskComponent_lt_of_loss (rising : StrictMono runtime.tanh)
    (bounded : ∀ x, |runtime.tanh x| ≤ 1) {pnl mild severe : ℚ} (loss : pnl < 0)
    (order : |mild| < |severe|) :
    riskComponent runtime pnl mild < riskComponent runtime pnl severe := by
  have ratios : pnl / (|mild| + 5 / 10) < pnl / (|severe| + 5 / 10) := by
    rw [div_lt_div_iff₀ (by positivity) (by positivity)]
    nlinarith
  have saturated := rising ratios
  rw [riskComponent_eq bounded, riskComponent_eq bounded]
  linarith

/-- A worse excursion is not rewarded exactly when the trade made no loss. -/
theorem painUnrewarded_iff (rising : StrictMono runtime.tanh)
    (bounded : ∀ x, |runtime.tanh x| ≤ 1) (tradeId : String) (decisionScore : ℚ)
    (outcome : TradeOutcome) {mild severe : ℚ} (order : |mild| ≤ |severe|) :
    PainUnrewarded runtime tradeId decisionScore outcome mild severe ↔
      0 ≤ outcome.realizedPnlPct ∨ |mild| = |severe| := by
  constructor
  · rintro ⟨risk, -⟩
    by_contra pain
    rw [not_or, not_le] at pain
    exact risk.not_gt (riskComponent_lt_of_loss rising bounded pain.1 (order.lt_of_ne pain.2))
  · intro painless
    have risk : riskComponent runtime outcome.realizedPnlPct severe ≤
        riskComponent runtime outcome.realizedPnlPct mild := by
      rcases painless with gain | same
      · exact riskComponent_anti_of_gain rising.monotone gain order
      · rw [riskComponent, riskComponent, same]
    refine ⟨risk, ?_⟩
    rw [overallScore_eq, overallScore_eq]
    exact blend_mono le_rfl risk le_rfl le_rfl

theorem painUnrewarded_gain :
    PainUnrewarded chordRuntime "t-1" (4 / 10) boughtTrade (1 / 2) (3 / 2) := by
  have order : |(1 / 2 : ℚ)| ≤ |3 / 2| := abs_le_abs_of_nonneg (by norm_num) (by norm_num)
  exact (@painUnrewarded_iff chordRuntime chordTanh_strictMono abs_chordTanh_le_one "t-1" (4 / 10)
    boughtTrade _ _ order).mpr (.inl zero_le_one)

/-- A loss of one percent is graded better after an excursion of 1.5 percent than after 0.5. -/
theorem not_painUnrewarded_loss :
    ¬PainUnrewarded chordRuntime "t-1" (4 / 10)
      { boughtTrade with realizedPnl := -10, realizedPnlPct := -1 } (1 / 2) (3 / 2) := by
  intro pain
  exact absurd pain.2 (by decide +kernel)

end TradingControl.Cognitive
