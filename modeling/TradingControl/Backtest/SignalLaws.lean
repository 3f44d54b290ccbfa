import TradingControl.Backtest.Strategies

/-!
# Laws of the signal

Whether a move is measured in percent or in its volatility, its score follows one shape: two bands
that meet at the strong boundary.  The strategies take parts of the classification over, and agree
with it exactly at the boundaries of the tiers.
-/

namespace TradingControl.Backtest

/-! ## Mirrors -/

/-- The direction of the opposite move. -/
def MarketDirection.mirror : MarketDirection → MarketDirection
  | .bullish => .bearish
  | .bearish => .bullish
  | .neutral => .neutral

/-- The opposite action. -/
def mirrorAction (action : String) : String :=
  if action = "buy" then "sell" else if action = "sell" then "buy" else action

/-- The signal of the opposite move. -/
def Signal.mirror (signal : Signal) : Signal :=
  { signal with direction := signal.direction.mirror, action := mirrorAction signal.action }

/-! ## Scales -/

/-- What a move is measured in, and the boundaries of its tiers. -/
structure Scale where
  unit : ℚ
  momentum : ℚ
  strong : ℚ
  ceiling : ℚ
  unit_pos : 0 < unit
  momentum_pos : 0 < momentum
  momentum_lt : momentum < strong
  strong_lt : strong < ceiling

/-- The scale for a volatility, in percent where there is none. -/
def scaleOf (sigma : Option ℚ) : Scale :=
  if usable : ∃ value ∈ sigma, sigmaFloorPct ≤ value then
    { unit := sigma.getD 1
      momentum := momentumSigma
      strong := strongMomentumSigma
      ceiling := strongMomentumSigmaCeil
      unit_pos := by
        obtain ⟨value, rfl, floor⟩ := usable
        exact lt_of_lt_of_le (by norm_num [sigmaFloorPct]) floor
      momentum_pos := by norm_num [momentumSigma]
      momentum_lt := by norm_num [momentumSigma, strongMomentumSigma]
      strong_lt := by norm_num [strongMomentumSigma, strongMomentumSigmaCeil] }
  else
    { unit := 1
      momentum := momentumPct
      strong := strongMomentumPct
      ceiling := strongMomentumPctCeil
      unit_pos := one_pos
      momentum_pos := by norm_num [momentumPct]
      momentum_lt := by norm_num [momentumPct, strongMomentumPct]
      strong_lt := by norm_num [strongMomentumPct, strongMomentumPctCeil] }

/-- The tier of a measure. -/
def Scale.tier (scale : Scale) (value : ℚ) : SignalType × SignalStrength × ℚ :=
  Backtest.tier value scale.momentum scale.strong scale.ceiling

/-- The move that opens the strong tier. -/
def strongBoundary (sigma : Option ℚ) : ℚ := (scaleOf sigma).strong * (scaleOf sigma).unit

/-- Laws of the classification and of the strategies. -/
structure SignalLaws : Prop where
  rising : ∀ sigma {pct other : ℚ}, |pct| ≤ |other| →
    (classifySignal pct sigma).score ≤ (classifySignal other sigma).score
  bounded : ∀ sigma pct, 30 ≤ (classifySignal pct sigma).score ∧
    (classifySignal pct sigma).score ≤ 95
  continuous : ∀ sigma {pct : ℚ}, |pct| = strongBoundary sigma → ∀ error > 0, ∃ room > 0, ∀ other,
    |(|other| - |pct|)| < room →
    |(classifySignal other sigma).score - (classifySignal pct sigma).score| < error
  mirrored : ∀ sigma pct, classifySignal (-pct) sigma = (classifySignal pct sigma).mirror
  scaled : ∀ {sigma factor : ℚ} pct, sigmaFloorPct ≤ sigma → 1 ≤ factor →
    classifySignal (factor * pct) (some (factor * sigma)) = classifySignal pct (some sigma)
  acts : ∀ sigma pct, (classifySignal pct sigma).action ≠ "hold" ↔
    (classifySignal pct sigma).signalType ∈ [.strongMomentum, .momentum] ∧ pct ≠ 0
  strongAgrees : ∀ sqrt bar, strongOnly sqrt bar = "hold" ∨
    strongOnly sqrt bar = baselineMomentum sqrt bar
  reversionMirrors : ∀ {sqrt bar sigma}, computeReturnSigma sqrt bar.history = some sigma →
    sigmaFloorPct ≤ sigma → meanReversion sqrt bar = mirrorAction (baselineMomentum sqrt bar)

/-! ## One band -/

section

variable {low high scoreLow scoreHigh : ℚ}

theorem graduateScore_eq (band : low < high) (value : ℚ) :
    graduateScore value low high scoreLow scoreHigh =
      scoreLow + max 0 (min 1 ((value - low) / (high - low))) * (scoreHigh - scoreLow) := by
  rw [graduateScore, if_neg (not_le.mpr band)]
  dsimp only
  congr 2
  by_cases below : (value - low) / (high - low) < 0
  · rw [if_pos below, min_eq_right (below.le.trans zero_le_one), max_eq_left below.le]
  · rw [if_neg below]
    have nonneg := not_lt.mp below
    by_cases above : 1 < (value - low) / (high - low)
    · rw [if_pos above, min_eq_left above.le, max_eq_right zero_le_one]
    · rw [if_neg above, min_eq_right (not_lt.mp above), max_eq_right nonneg]

theorem graduateScore_low (band : low < high) :
    graduateScore low low high scoreLow scoreHigh = scoreLow := by
  rw [graduateScore_eq band]
  simp

theorem graduateScore_high (band : low < high) :
    graduateScore high low high scoreLow scoreHigh = scoreHigh := by
  rw [graduateScore_eq band, div_self (sub_pos.mpr band).ne']
  simp

theorem graduateScore_mono (band : low < high) (scores : scoreLow ≤ scoreHigh) {value other : ℚ}
    (order : value ≤ other) :
    graduateScore value low high scoreLow scoreHigh ≤
      graduateScore other low high scoreLow scoreHigh := by
  rw [graduateScore_eq band, graduateScore_eq band]
  have positions : (value - low) / (high - low) ≤ (other - low) / (high - low) :=
    div_le_div_of_nonneg_right (sub_le_sub_right order low) (sub_pos.mpr band).le
  have fractions := max_le_max_left 0 (min_le_min_left 1 positions)
  exact add_le_add_right (mul_le_mul_of_nonneg_right fractions (sub_nonneg.mpr scores)) scoreLow

theorem graduateScore_mem (band : low < high) (scores : scoreLow ≤ scoreHigh) (value : ℚ) :
    scoreLow ≤ graduateScore value low high scoreLow scoreHigh ∧
      graduateScore value low high scoreLow scoreHigh ≤ scoreHigh := by
  rw [graduateScore_eq band]
  have width := sub_nonneg.mpr scores
  have nonneg : 0 ≤ max 0 (min 1 ((value - low) / (high - low))) := le_max_left _ _
  have whole : max 0 (min 1 ((value - low) / (high - low))) ≤ 1 :=
    max_le zero_le_one (min_le_left _ _)
  have least := mul_nonneg nonneg width
  have most := mul_le_of_le_one_left width whole
  exact ⟨by linarith, by linarith⟩

/-- The slope of a band bounds how far scores of it are apart. -/
theorem graduateScore_slope (band : low < high) (scores : scoreLow ≤ scoreHigh) {value other : ℚ}
    (order : value ≤ other) :
    graduateScore other low high scoreLow scoreHigh -
      graduateScore value low high scoreLow scoreHigh ≤
        (scoreHigh - scoreLow) / (high - low) * (other - value) := by
  rw [graduateScore_eq band, graduateScore_eq band]
  have width := sub_pos.mpr band
  have apart : (other - low) / (high - low) =
      (value - low) / (high - low) + (other - value) / (high - low) := by
    rw [← add_div, sub_add_sub_comm, add_comm value, add_sub_add_right_eq_sub]
  have gap : 0 ≤ (other - value) / (high - low) := div_nonneg (sub_nonneg.mpr order) width.le
  have fractions : max 0 (min 1 ((other - low) / (high - low))) ≤
      max 0 (min 1 ((value - low) / (high - low))) + (other - value) / (high - low) := by
    rw [apart]
    grind
  have scaled := mul_le_mul_of_nonneg_right fractions (sub_nonneg.mpr scores)
  have swapped : (scoreHigh - scoreLow) / (high - low) * (other - value) =
      (other - value) / (high - low) * (scoreHigh - scoreLow) := by ring
  rw [swapped]
  linarith

end

/-! ## The two bands -/

variable {scale : Scale}

theorem tier_score (scale : Scale) (value : ℚ) :
    (scale.tier value).2.2 =
      if scale.strong ≤ value then graduateScore value scale.strong scale.ceiling 80 95
      else if scale.momentum ≤ value then graduateScore value scale.momentum scale.strong 55 80
      else 30 := by
  rw [Scale.tier, tier]
  split_ifs <;> rfl

theorem tier_score_mem (scale : Scale) (value : ℚ) :
    30 ≤ (scale.tier value).2.2 ∧ (scale.tier value).2.2 ≤ 95 := by
  rw [tier_score]
  split_ifs
  · obtain ⟨least, most⟩ := graduateScore_mem scale.strong_lt (show (80 : ℚ) ≤ 95 by norm_num) value
    exact ⟨le_trans (by norm_num) least, most⟩
  · obtain ⟨least, most⟩ :=
      graduateScore_mem scale.momentum_lt (show (55 : ℚ) ≤ 80 by norm_num) value
    exact ⟨le_trans (by norm_num) least, le_trans most (by norm_num)⟩
  · norm_num

theorem tier_score_mono (scale : Scale) {value other : ℚ} (order : value ≤ other) :
    (scale.tier value).2.2 ≤ (scale.tier other).2.2 := by
  rw [tier_score, tier_score]
  by_cases strong : scale.strong ≤ value
  · rw [if_pos strong, if_pos (strong.trans order)]
    exact graduateScore_mono scale.strong_lt (by norm_num) order
  rw [if_neg strong]
  by_cases momentum : scale.momentum ≤ value
  · rw [if_pos momentum]
    by_cases otherStrong : scale.strong ≤ other
    · -- the bands meet at the strong boundary
      rw [if_pos otherStrong]
      exact (graduateScore_mem scale.momentum_lt (by norm_num) value).2.trans
        (graduateScore_mem scale.strong_lt (by norm_num) other).1
    · rw [if_neg otherStrong, if_pos (momentum.trans order)]
      exact graduateScore_mono scale.momentum_lt (by norm_num) order
  · rw [if_neg momentum, ← tier_score]
    exact (tier_score_mem scale other).1

/-- The steeper of the two bands at the strong boundary, at most. -/
def Scale.slope (scale : Scale) : ℚ :=
  15 / (scale.ceiling - scale.strong) + 25 / (scale.strong - scale.momentum)

theorem Scale.slope_pos (scale : Scale) : 0 < scale.slope :=
  add_pos (div_pos (by norm_num) (sub_pos.mpr scale.strong_lt))
    (div_pos (by norm_num) (sub_pos.mpr scale.momentum_lt))

theorem tier_score_strong (scale : Scale) : (scale.tier scale.strong).2.2 = 80 := by
  rw [tier_score, if_pos le_rfl, graduateScore_low scale.strong_lt]

/-- Above the momentum boundary the score is Lipschitz around the strong one. -/
theorem tier_score_near {value : ℚ} (momentum : scale.momentum ≤ value) :
    |(scale.tier value).2.2 - 80| ≤ scale.slope * |value - scale.strong| := by
  have rises : 0 ≤ 15 / (scale.ceiling - scale.strong) :=
    div_nonneg (by norm_num) (sub_pos.mpr scale.strong_lt).le
  have climbs : 0 ≤ 25 / (scale.strong - scale.momentum) :=
    div_nonneg (by norm_num) (sub_pos.mpr scale.momentum_lt).le
  rw [tier_score]
  by_cases strong : scale.strong ≤ value
  · rw [if_pos strong]
    have above := sub_nonneg.mpr strong
    have least := (graduateScore_mem scale.strong_lt (show (80 : ℚ) ≤ 95 by norm_num) value).1
    have near := graduateScore_slope scale.strong_lt (show (80 : ℚ) ≤ 95 by norm_num) strong
    rw [graduateScore_low scale.strong_lt] at near
    rw [abs_of_nonneg (sub_nonneg.mpr least), abs_of_nonneg above]
    refine near.trans (mul_le_mul_of_nonneg_right ?_ above)
    rw [Scale.slope]
    norm_num
    exact climbs
  · rw [if_neg strong, if_pos momentum]
    have below := not_le.mp strong
    have most := (graduateScore_mem scale.momentum_lt (show (55 : ℚ) ≤ 80 by norm_num) value).2
    have near := graduateScore_slope scale.momentum_lt (show (55 : ℚ) ≤ 80 by norm_num) below.le
    rw [graduateScore_high scale.momentum_lt] at near
    rw [abs_of_nonpos (sub_nonpos.mpr most), abs_of_neg (sub_neg.mpr below), neg_sub, neg_sub]
    refine near.trans (mul_le_mul_of_nonneg_right ?_ (sub_pos.mpr below).le)
    rw [Scale.slope]
    norm_num
    exact rises

/-! ## The signal -/

/-- The direction of a move. -/
def directionOf (pct : ℚ) : MarketDirection :=
  if 0 < pct then .bullish else if pct < 0 then .bearish else .neutral

def actionOf (strength : SignalStrength) (direction : MarketDirection) : String :=
  if strength = .low ∨ direction = .neutral then "hold"
  else if direction = .bullish then "buy"
  else "sell"

/-- The tier of a move in its scale. -/
def gradeOf (pct : ℚ) (sigma : Option ℚ) : SignalType × SignalStrength × ℚ :=
  (scaleOf sigma).tier (|pct| / (scaleOf sigma).unit)

theorem scaleOf_usable {sigma : ℚ} (floor : sigmaFloorPct ≤ sigma) :
    (scaleOf (some sigma)).unit = sigma ∧
      (scaleOf (some sigma)).momentum = momentumSigma ∧
      (scaleOf (some sigma)).strong = strongMomentumSigma ∧
      (scaleOf (some sigma)).ceiling = strongMomentumSigmaCeil := by
  have usable : ∃ value ∈ some sigma, sigmaFloorPct ≤ value := ⟨sigma, rfl, floor⟩
  rw [scaleOf, dif_pos usable]
  exact ⟨rfl, rfl, rfl, rfl⟩

theorem scaleOf_unusable {sigma : Option ℚ} (low : ¬∃ value ∈ sigma, sigmaFloorPct ≤ value) :
    (scaleOf sigma).unit = 1 ∧ (scaleOf sigma).momentum = momentumPct ∧
      (scaleOf sigma).strong = strongMomentumPct ∧
      (scaleOf sigma).ceiling = strongMomentumPctCeil := by
  rw [scaleOf, dif_neg low]
  exact ⟨rfl, rfl, rfl, rfl⟩

theorem gradeOf_usable (pct : ℚ) {sigma : ℚ} (floor : sigmaFloorPct ≤ sigma) :
    gradeOf pct (some sigma) =
      tier (|pct| / sigma) momentumSigma strongMomentumSigma strongMomentumSigmaCeil := by
  obtain ⟨unit, momentum, strong, ceiling⟩ := scaleOf_usable floor
  rw [gradeOf, Scale.tier, unit, momentum, strong, ceiling]

theorem gradeOf_unusable (pct : ℚ) {sigma : Option ℚ}
    (low : ¬∃ value ∈ sigma, sigmaFloorPct ≤ value) :
    gradeOf pct sigma = tier |pct| momentumPct strongMomentumPct strongMomentumPctCeil := by
  obtain ⟨unit, momentum, strong, ceiling⟩ := scaleOf_unusable low
  rw [gradeOf, Scale.tier, unit, momentum, strong, ceiling, div_one]

theorem classifySignal_eq (pct : ℚ) (sigma : Option ℚ) :
    classifySignal pct sigma =
      { signalType := (gradeOf pct sigma).1
        strength := (gradeOf pct sigma).2.1
        score := (gradeOf pct sigma).2.2
        direction := directionOf pct
        action := actionOf (gradeOf pct sigma).2.1 (directionOf pct) } := by
  cases sigma with
  | none =>
      rw [gradeOf_unusable pct (by rintro ⟨value, held, -⟩; cases held)]
      rfl
  | some sigma =>
      by_cases floor : sigmaFloorPct ≤ sigma
      · rw [gradeOf_usable pct floor]
        simp only [classifySignal, if_pos floor]
        rfl
      · rw [gradeOf_unusable pct (by rintro ⟨value, held, above⟩; cases held; exact floor above)]
        simp only [classifySignal, if_neg floor]
        rfl

theorem directionOf_neg (pct : ℚ) : directionOf (-pct) = (directionOf pct).mirror := by
  simp only [directionOf, neg_pos, neg_lt_zero]
  rcases lt_trichotomy pct 0 with falls | rfl | rises
  · rw [if_pos falls, if_neg falls.not_gt, if_pos falls]
    rfl
  · rfl
  · rw [if_neg rises.not_gt, if_pos rises, if_pos rises]
    rfl

theorem directionOf_neutral {pct : ℚ} : directionOf pct = .neutral ↔ pct = 0 := by
  rw [directionOf]
  rcases lt_trichotomy pct 0 with falls | rfl | rises
  · simp [falls, falls.not_gt, falls.ne]
  · simp
  · simp [rises, rises.ne']

theorem actionOf_mirror (strength : SignalStrength) (direction : MarketDirection) :
    actionOf strength direction.mirror = mirrorAction (actionOf strength direction) := by
  cases strength <;> cases direction <;> rfl

theorem actionOf_acts {strength : SignalStrength} {direction : MarketDirection} :
    actionOf strength direction ≠ "hold" ↔ strength ≠ .low ∧ direction ≠ .neutral := by
  cases strength <;> cases direction <;> decide

theorem gradeOf_neg (pct : ℚ) (sigma : Option ℚ) : gradeOf (-pct) sigma = gradeOf pct sigma := by
  rw [gradeOf, gradeOf, abs_neg]

theorem classifySignal_neg (sigma : Option ℚ) (pct : ℚ) :
    classifySignal (-pct) sigma = (classifySignal pct sigma).mirror := by
  rw [classifySignal_eq, classifySignal_eq, gradeOf_neg, directionOf_neg, actionOf_mirror]
  rfl

/-- A tier is weak exactly where it is no momentum. -/
theorem gradeOf_low (pct : ℚ) (sigma : Option ℚ) :
    (gradeOf pct sigma).2.1 ≠ .low ↔
      (gradeOf pct sigma).1 ∈ [SignalType.strongMomentum, .momentum] := by
  rw [gradeOf, Scale.tier, tier]
  split_ifs <;> simp

theorem classifySignal_acts (sigma : Option ℚ) (pct : ℚ) :
    (classifySignal pct sigma).action ≠ "hold" ↔
      (classifySignal pct sigma).signalType ∈ [.strongMomentum, .momentum] ∧ pct ≠ 0 := by
  rw [classifySignal_eq]
  exact actionOf_acts.trans (and_congr (gradeOf_low pct sigma) (not_congr directionOf_neutral))

theorem classifySignal_continuous (sigma : Option ℚ) {pct : ℚ}
    (boundary : |pct| = strongBoundary sigma) {error : ℚ} (positive : 0 < error) :
    ∃ room > 0, ∀ other, |(|other| - |pct|)| < room →
      |(classifySignal other sigma).score - (classifySignal pct sigma).score| < error := by
  obtain ⟨scale, scaled⟩ : ∃ scale, scale = scaleOf sigma := ⟨_, rfl⟩
  have band := sub_pos.mpr scale.momentum_lt
  have narrow := div_pos positive scale.slope_pos
  refine ⟨min (scale.strong - scale.momentum) (error / scale.slope) * scale.unit,
    mul_pos (lt_min band narrow) scale.unit_pos, fun other near => ?_⟩
  rw [strongBoundary, ← scaled] at boundary
  have distance : |(|other| - |pct|)| = |(|other| / scale.unit - scale.strong)| * scale.unit := by
    rw [boundary, ← abs_of_pos scale.unit_pos, ← abs_mul, abs_of_pos scale.unit_pos, sub_mul,
      div_mul_cancel₀ _ scale.unit_pos.ne']
  rw [distance] at near
  obtain ⟨inBand, close⟩ := lt_min_iff.mp (lt_of_mul_lt_mul_right near scale.unit_pos.le)
  have momentum : scale.momentum ≤ |other| / scale.unit := by
    have least := (abs_lt.mp inBand).1
    linarith
  have score : (classifySignal pct sigma).score = 80 := by
    rw [classifySignal_eq, gradeOf, ← scaled, boundary, mul_div_cancel_right₀ _ scale.unit_pos.ne',
      tier_score_strong]
  have otherScore : (classifySignal other sigma).score =
      (scale.tier (|other| / scale.unit)).2.2 := by
    rw [classifySignal_eq, gradeOf, ← scaled]
  rw [score, otherScore]
  have bound := (lt_div_iff₀' scale.slope_pos).mp close
  exact (tier_score_near momentum).trans_lt bound

theorem classifySignal_scaled {sigma factor : ℚ} (pct : ℚ) (floor : sigmaFloorPct ≤ sigma)
    (grows : 1 ≤ factor) :
    classifySignal (factor * pct) (some (factor * sigma)) = classifySignal pct (some sigma) := by
  have positive : 0 < factor := zero_lt_one.trans_le grows
  have unit : 0 < sigma := lt_of_lt_of_le (by norm_num [sigmaFloorPct]) floor
  have otherFloor : sigmaFloorPct ≤ factor * sigma :=
    floor.trans (le_mul_of_one_le_left unit.le grows)
  have direction : directionOf (factor * pct) = directionOf pct := by
    have falls : factor * pct < 0 ↔ pct < 0 := by
      simpa using mul_lt_mul_iff_right₀ (b := pct) (c := 0) positive
    simp only [directionOf, mul_pos_iff_of_pos_left positive, falls]
  have grade : gradeOf (factor * pct) (some (factor * sigma)) = gradeOf pct (some sigma) := by
    rw [gradeOf_usable _ otherFloor, gradeOf_usable _ floor, abs_mul, abs_of_pos positive,
      mul_div_mul_left _ _ positive.ne']
  rw [classifySignal_eq, classifySignal_eq, direction, grade]

/-! ## The strategies -/

section

variable {sqrt : ℚ → ℚ} {bar : Bar} {sigma : ℚ}

/-- Past a boundary of its scale a move has a direction. -/
theorem pct_ne_zero {pct bound : ℚ} (positive : 0 < bound) (past : bound ≤ |pct| / sigma) :
    pct ≠ 0 := by
  rintro rfl
  rw [abs_zero, zero_div] at past
  exact absurd past (not_le.mpr positive)

theorem actionOf_direction {strength : SignalStrength} (strong : strength ≠ .low) {pct : ℚ}
    (moves : pct ≠ 0) :
    actionOf strength (directionOf pct) = if 0 < pct then "buy" else "sell" := by
  rw [actionOf, if_neg (not_or.mpr ⟨strong, mt directionOf_neutral.mp moves⟩)]
  by_cases rises : 0 < pct
  · rw [directionOf, if_pos rises, if_pos rises, if_pos rfl]
  · have falls := lt_of_le_of_ne (not_lt.mp rises) moves
    rw [directionOf, if_neg rises, if_pos falls, if_neg rises, if_neg (by decide)]

theorem baselineMomentum_eq (measured : computeReturnSigma sqrt bar.history = some sigma)
    (floor : sigmaFloorPct ≤ sigma) :
    baselineMomentum sqrt bar =
      if |bar.pct| / sigma < momentumSigma then "hold"
      else if 0 < bar.pct then "buy" else "sell" := by
  rw [baselineMomentum, measured, classifySignal_eq, gradeOf_usable _ floor, tier]
  by_cases strong : strongMomentumSigma ≤ |bar.pct| / sigma
  · have momentum : ¬|bar.pct| / sigma < momentumSigma :=
      not_lt.mpr (le_trans (by norm_num [momentumSigma, strongMomentumSigma]) strong)
    rw [if_pos strong, if_neg momentum]
    exact actionOf_direction (show SignalStrength.high ≠ .low by decide)
      (pct_ne_zero (by norm_num [strongMomentumSigma]) strong)
  rw [if_neg strong]
  by_cases momentum : momentumSigma ≤ |bar.pct| / sigma
  · rw [if_pos momentum, if_neg (not_lt.mpr momentum)]
    exact actionOf_direction (show SignalStrength.normal ≠ .low by decide)
      (pct_ne_zero (by norm_num [momentumSigma]) momentum)
  · rw [if_neg momentum, if_pos (not_le.mp momentum)]
    rfl

theorem strongOnly_agrees (sqrt : ℚ → ℚ) (bar : Bar) :
    strongOnly sqrt bar = "hold" ∨ strongOnly sqrt bar = baselineMomentum sqrt bar := by
  rw [strongOnly]
  cases measured : computeReturnSigma sqrt bar.history with
  | none => exact .inl rfl
  | some sigma =>
      dsimp only
      split_ifs with low weak rises
      · exact .inl rfl
      · exact .inl rfl
      · have momentum : ¬|bar.pct| / sigma < momentumSigma := fun below =>
          weak (below.trans (by norm_num [momentumSigma, strongMomentumSigma]))
        rw [baselineMomentum_eq measured (not_lt.mp low), if_neg momentum, if_pos rises]
        exact .inr rfl
      · have momentum : ¬|bar.pct| / sigma < momentumSigma := fun below =>
          weak (below.trans (by norm_num [momentumSigma, strongMomentumSigma]))
        rw [baselineMomentum_eq measured (not_lt.mp low), if_neg momentum, if_neg rises]
        exact .inr rfl

theorem meanReversion_mirrors (measured : computeReturnSigma sqrt bar.history = some sigma)
    (floor : sigmaFloorPct ≤ sigma) :
    meanReversion sqrt bar = mirrorAction (baselineMomentum sqrt bar) := by
  rw [baselineMomentum_eq measured floor, meanReversion, measured]
  dsimp only
  rw [if_neg (not_lt.mpr floor)]
  split_ifs <;> rfl

end

/-- The classification and the strategies follow the laws. -/
theorem signalLaws : SignalLaws where
  rising := by
    intro sigma pct other order
    rw [classifySignal_eq, classifySignal_eq]
    exact tier_score_mono _ (div_le_div_of_nonneg_right order (scaleOf sigma).unit_pos.le)
  bounded := by
    intro sigma pct
    rw [classifySignal_eq]
    exact tier_score_mem _ _
  continuous := by
    intro sigma pct boundary error positive
    exact classifySignal_continuous sigma boundary positive
  mirrored := classifySignal_neg
  scaled := by
    intro sigma factor pct floor grows
    exact classifySignal_scaled pct floor grows
  acts := classifySignal_acts
  strongAgrees := strongOnly_agrees
  reversionMirrors := meanReversion_mirrors

end TradingControl.Backtest
