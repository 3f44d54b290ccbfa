import Mathlib.Data.List.Dedup
import TradingControl.Learning.TradeScorer

/-!
# Laws of the trade score

The score of a trade is bounded, rises with its return, and knows no side.  It rises with the
confidence too, except that `score_trade` takes a confidence of zero for a missing one and goes on
to the confidence of the signal and then to one half.
-/

namespace TradingControl.Learning

open Python

/-! ## Mirrored trades -/

/-- The opposite of a side of an order or a position. -/
def mirrorSide (side : String) : String :=
  if side = "buy" then "sell"
  else if side = "sell" then "buy"
  else if side = "long" then "short"
  else if side = "short" then "long"
  else side

/-- The side that the direction of the move is read from. -/
def directionKey (trade : TradeData) : String :=
  if normText trade.positionSide ≠ "" then normText trade.positionSide else normText trade.side

def priceChange (trade : TradeData) : Option ℚ :=
  match trade.entryPrice, trade.exitPrice with
  | some entry, some exit => if entry ≤ 0 then none else some ((exit - entry) / entry * 100)
  | _, _ => none

def ClosesLong (trade : TradeData) : Prop := directionKey trade ∈ ["sell", "long"]

def TradeData.turned (trade : TradeData) (side action positionSide : Option String)
    (entryPrice exitPrice : Option ℚ) : TradeData :=
  { trade with side, action, positionSide, entryPrice, exitPrice }

/-- The other trade is the first one on the other side of a market that moved the other way. -/
structure Mirrored (trade other : TradeData) : Prop where
  side : normText other.side = mirrorSide (normText trade.side)
  action : normText other.action = mirrorSide (normText trade.action)
  positionSide : normText other.positionSide = mirrorSide (normText trade.positionSide)
  prices : priceChange other = (priceChange trade).map (-·)
  turned : ∃ side action positionSide entryPrice exitPrice,
    other = trade.turned side action positionSide entryPrice exitPrice

/-! ## The laws -/

/-- The place of a grade, from the worst on. -/
def Grade.rank : Grade → ℕ
  | .f => 0
  | .d => 1
  | .c => 2
  | .b => 3
  | .a => 4

/-- The trade with another return and another confidence. -/
def TradeData.scored (trade : TradeData) (pnlPercent confidence : ℚ) : TradeData :=
  { trade with pnlPercent := some pnlPercent, confidence := some confidence }

/-- A list of tags as it is meant to be. -/
structure TagList (tags : List TradeTag) : Prop where
  nodup : tags.Nodup
  short : tags.length ≤ 6
  consistent : ¬(.cleanExecution ∈ tags ∧ .reversionLuck ∈ tags)

/-- What the evaluation of a trade keeps to. -/
structure TradeLaws (trade : TradeData) : Prop where
  bounded : 0 ≤ (scoreTrade trade).overallScore ∧ (scoreTrade trade).overallScore ≤ 1
  ordered : ∀ {pnlPercent otherPercent confidence otherConfidence : ℚ},
    pnlPercent ≤ otherPercent → 0 ≤ confidence → confidence ≤ otherConfidence →
    otherConfidence ≤ 1 →
    (scoreTrade (trade.scored pnlPercent confidence)).overallScore ≤
      (scoreTrade (trade.scored otherPercent otherConfidence)).overallScore
  graded : ∀ other, (scoreTrade trade).overallScore < (scoreTrade other).overallScore →
    (scoreTrade trade).grade.rank ≤ (scoreTrade other).grade.rank
  mistakes : TagList (scoreTrade trade).mistakes
  strengths : TagList (scoreTrade trade).strengths
  mirrored : ∀ {other}, ClosesLong trade → Mirrored trade other →
    scoreTrade other = { scoreTrade trade with side := other.side }

/-- The signal has a confidence of its own that scores no more than zero does. -/
def SignalStandsIn (trade : TradeData) : Prop :=
  ∃ signal ∈ trade.signalConfidence, signal ≠ 0 ∧ signal ≤ 3 / 10

/-! ## The blend -/

variable {trade other : TradeData}

theorem clamp_mem (value : ℚ) : 0 ≤ clamp value ∧ clamp value ≤ 1 :=
  ⟨le_max_left _ _, max_le zero_le_one (min_le_left _ _)⟩

theorem clamp_mono {first second : ℚ} (order : first ≤ second) : clamp first ≤ clamp second :=
  max_le_max_left 0 (min_le_min_left 1 order)

theorem clamp_of_mem {value : ℚ} (nonneg : 0 ≤ value) (bounded : value ≤ 1) :
    clamp value = value := by
  rw [clamp, min_eq_right bounded, max_eq_right nonneg]

theorem normalize_mono {low high first second : ℚ} (band : low < high) (order : first ≤ second) :
    normalize first low high ≤ normalize second low high := by
  rw [normalize, normalize, if_neg band.not_ge, if_neg band.not_ge]
  exact clamp_mono (div_le_div_of_nonneg_right (sub_le_sub_right order low) (sub_pos.mpr band).le)

/-- What the return and the sides contribute. -/
def TradeData.base (trade : TradeData) : ℚ :=
  30 / 100 * scoreNormalizedReturn trade.pnlPercent +
    25 / 100 * scoreRiskReward trade.pnl trade.pnlPercent +
    15 / 100 * scoreExitQuality trade.pnlPercent +
    10 / 100 * scoreSignalAlignment trade.side trade.action

/-- The quality of the entry. -/
def TradeData.entry (trade : TradeData) : ℚ :=
  scoreEntryQuality (orNumber trade.confidence trade.signalConfidence)

/-- The score before it is rounded. -/
def TradeData.overall (trade : TradeData) : ℚ := clamp (trade.base + 20 / 100 * trade.entry)

theorem blend_eq (trade : TradeData) :
    clamp (30 / 100 * scoreNormalizedReturn trade.pnlPercent +
      25 / 100 * scoreRiskReward trade.pnl trade.pnlPercent +
      20 / 100 * scoreEntryQuality (orNumber trade.confidence trade.signalConfidence) +
      15 / 100 * scoreExitQuality trade.pnlPercent +
      10 / 100 * scoreSignalAlignment trade.side trade.action) = trade.overall := by
  rw [TradeData.overall, TradeData.base, TradeData.entry]
  ring_nf

theorem overallScore_eq (trade : TradeData) :
    (scoreTrade trade).overallScore = roundHalfEven 4 trade.overall := by
  rw [← blend_eq]
  rfl

theorem grade_eq (trade : TradeData) :
    (scoreTrade trade).grade = scoreToGrade trade.overall := by
  rw [← blend_eq]
  rfl

theorem scoreToGrade_mono {score other : ℚ} (order : score ≤ other) :
    (scoreToGrade score).rank ≤ (scoreToGrade other).rank := by
  rw [scoreToGrade, scoreToGrade]
  split_ifs <;> first | decide | (exfalso; linarith)

theorem grade_mono (above : (scoreTrade trade).overallScore < (scoreTrade other).overallScore) :
    (scoreTrade trade).grade.rank ≤ (scoreTrade other).grade.rank := by
  rw [grade_eq, grade_eq]
  refine scoreToGrade_mono (le_of_not_gt fun less => ?_)
  rw [overallScore_eq, overallScore_eq] at above
  exact absurd (roundHalfEven_mono less.le) above.not_ge

theorem overallScore_mem (trade : TradeData) :
    0 ≤ (scoreTrade trade).overallScore ∧ (scoreTrade trade).overallScore ≤ 1 := by
  obtain ⟨nonneg, bounded⟩ := clamp_mem (trade.base + 20 / 100 * trade.entry)
  rw [overallScore_eq]
  exact ⟨roundHalfEven_nonneg nonneg, roundHalfEven_le_one bounded⟩

theorem base_mono {pnlPercent otherPercent : ℚ} (order : pnlPercent ≤ otherPercent)
    (confidence otherConfidence : ℚ) :
    (trade.scored pnlPercent confidence).base ≤
      (trade.scored otherPercent otherConfidence).base := by
  have returned : scoreNormalizedReturn (some pnlPercent) ≤
      scoreNormalizedReturn (some otherPercent) := normalize_mono (by norm_num) order
  have halved : 1 / 2 + pnlPercent / 20 ≤ 1 / 2 + otherPercent / 20 := by linarith
  have rewarded : scoreRiskReward trade.pnl (some pnlPercent) ≤
      scoreRiskReward trade.pnl (some otherPercent) := by
    rw [scoreRiskReward, scoreRiskReward]
    split_ifs
    · exact clamp_mono halved
    · exact clamp_mono halved
    · exact le_rfl
  have left : scoreExitQuality (some pnlPercent) ≤ scoreExitQuality (some otherPercent) := by
    have tenths : 1 / 2 + pnlPercent / 10 ≤ 1 / 2 + otherPercent / 10 := by linarith
    exact clamp_mono tenths
  simp only [TradeData.base, TradeData.scored]
  linarith

/-! ## The confidence -/

theorem scoreEntryQuality_mem (confidence : Option ℚ) :
    0 ≤ scoreEntryQuality confidence ∧ scoreEntryQuality confidence ≤ 1 := by
  rw [scoreEntryQuality, normalize, if_neg (by norm_num)]
  exact clamp_mem _

theorem scoreEntryQuality_low {confidence : ℚ} (filled : confidence ≠ 0)
    (low : confidence ≤ 3 / 10) : scoreEntryQuality (some confidence) = 0 := by
  rw [scoreEntryQuality, orNumber, Option.getD_some, if_pos filled, Option.getD_some, normalize,
    if_neg (by norm_num), clamp]
  refine max_eq_left ((min_le_right _ _).trans ?_)
  exact div_nonpos_of_nonpos_of_nonneg (sub_nonpos.mpr low) (by norm_num)

theorem scoreEntryQuality_mono {confidence other : ℚ} (filled : confidence ≠ 0)
    (otherFilled : other ≠ 0) (order : confidence ≤ other) :
    scoreEntryQuality (some confidence) ≤ scoreEntryQuality (some other) := by
  rw [scoreEntryQuality, scoreEntryQuality, orNumber, orNumber, Option.getD_some,
    Option.getD_some, if_pos filled, if_pos otherFilled, Option.getD_some, Option.getD_some]
  exact normalize_mono (by norm_num) order

theorem entry_filled {confidence : ℚ} (filled : confidence ≠ 0) (pnlPercent : ℚ) :
    (trade.scored pnlPercent confidence).entry = scoreEntryQuality (some confidence) := by
  rw [TradeData.entry, TradeData.scored, orNumber, Option.getD_some, if_pos filled]

theorem entry_zero (pnlPercent : ℚ) :
    (trade.scored pnlPercent 0).entry = scoreEntryQuality trade.signalConfidence := by
  rw [TradeData.entry, TradeData.scored, orNumber, Option.getD_some, if_neg (not_not.mpr rfl)]

theorem overall_mono (better : trade.base ≤ other.base) (surer : trade.entry ≤ other.entry) :
    (scoreTrade trade).overallScore ≤ (scoreTrade other).overallScore := by
  rw [overallScore_eq, overallScore_eq]
  refine roundHalfEven_mono (clamp_mono ?_)
  linarith

/-- With a low confidence of the signal a confidence of zero scores as the lowest one. -/
theorem ordered_of_standsIn (standsIn : SignalStandsIn trade)
    {pnlPercent otherPercent confidence otherConfidence : ℚ} (better : pnlPercent ≤ otherPercent)
    (nonneg : 0 ≤ confidence) (surer : confidence ≤ otherConfidence) :
    (scoreTrade (trade.scored pnlPercent confidence)).overallScore ≤
      (scoreTrade (trade.scored otherPercent otherConfidence)).overallScore := by
  refine overall_mono (base_mono better confidence otherConfidence) ?_
  rcases nonneg.eq_or_lt with rfl | positive
  · obtain ⟨signal, given, filled, low⟩ := standsIn
    rw [entry_zero, Option.mem_def.mp given, scoreEntryQuality_low filled low]
    exact (scoreEntryQuality_mem _).1
  · rw [entry_filled positive.ne', entry_filled (positive.trans_le surer).ne']
    exact scoreEntryQuality_mono positive.ne' (positive.trans_le surer).ne' surer

/-- Otherwise zero scores more than a low confidence does. -/
theorem scoreEntryQuality_pos (alone : ¬SignalStandsIn trade) :
    0 < scoreEntryQuality trade.signalConfidence := by
  have half : 0 < scoreEntryQuality none := by
    norm_num [scoreEntryQuality, orNumber, normalize, clamp]
  cases given : trade.signalConfidence with
  | none => exact half
  | some signal =>
      by_cases zero : signal = 0
      · rw [zero]
        exact half
      · have high : 3 / 10 < signal := by
          refine not_le.mp fun low => alone ⟨signal, given, zero, low⟩
        rw [scoreEntryQuality, orNumber, Option.getD_some, if_pos zero, Option.getD_some,
          normalize, if_neg (by norm_num), clamp]
        refine lt_max_of_lt_right (lt_min one_pos (div_pos (sub_pos.mpr high) ?_))
        norm_num

/-- For a small gain the base is linear in the return. -/
theorem base_linear (trade : TradeData) :
    ∃ start : ℤ, ∃ slope : ℚ, 4000 ≤ start ∧ start ≤ 4500 ∧ 3 / 100 ≤ slope ∧
      ∀ pnlPercent confidence, 0 ≤ pnlPercent → pnlPercent ≤ 1 →
        (trade.scored pnlPercent confidence).base = start / 10 ^ 4 + slope * pnlPercent := by
  have returned : ∀ pnlPercent : ℚ, 0 ≤ pnlPercent → pnlPercent ≤ 1 →
      scoreNormalizedReturn (some pnlPercent) = 1 / 2 + pnlPercent / 20 := by
    intro pnlPercent nonneg small
    rw [scoreNormalizedReturn, normalize, if_neg (by norm_num), Option.getD_some,
      clamp_of_mem (by linarith) (by linarith)]
    ring
  have left : ∀ pnlPercent : ℚ, 0 ≤ pnlPercent → pnlPercent ≤ 1 →
      scoreExitQuality (some pnlPercent) = 1 / 2 + pnlPercent / 10 := by
    intro pnlPercent nonneg small
    rw [scoreExitQuality, Option.getD_some, clamp_of_mem (by linarith) (by linarith)]
  have rewarded : ∃ rate : ℚ, 0 ≤ rate ∧ ∀ pnlPercent : ℚ, 0 ≤ pnlPercent → pnlPercent ≤ 1 →
      scoreRiskReward trade.pnl (some pnlPercent) = 1 / 2 + rate * pnlPercent := by
    by_cases flat : trade.pnl.getD 0 = 0
    · refine ⟨0, le_rfl, fun pnlPercent _ _ => ?_⟩
      simp [scoreRiskReward, flat]
    · refine ⟨1 / 20, by norm_num, fun pnlPercent nonneg small => ?_⟩
      rw [scoreRiskReward, Option.getD_some, clamp_of_mem (by linarith) (by linarith)]
      rcases lt_or_gt_of_ne flat with loss | gain
      · rw [if_neg loss.not_gt, if_pos loss]
        ring
      · rw [if_pos gain]
        ring
  have aligned : ∃ share : ℤ, 500 ≤ share ∧ share ≤ 1000 ∧
      10 / 100 * scoreSignalAlignment trade.side trade.action = share / 10 ^ 4 := by
    rw [scoreSignalAlignment]
    split_ifs
    · exact ⟨1000, by norm_num, le_rfl, by norm_num⟩
    · exact ⟨1000, by norm_num, le_rfl, by norm_num⟩
    · exact ⟨1000, by norm_num, le_rfl, by norm_num⟩
    · exact ⟨500, le_rfl, by norm_num, by norm_num⟩
  obtain ⟨rate, nonneg, rewarded⟩ := rewarded
  obtain ⟨share, least, most, aligned⟩ := aligned
  refine ⟨3500 + share, 3 / 100 + 1 / 4 * rate, by linarith, by linarith, by linarith, ?_⟩
  intro pnlPercent confidence positive small
  rw [TradeData.base, TradeData.scored, returned _ positive small, left _ positive small,
    rewarded _ positive small, aligned]
  push_cast
  ring

/-- Some small offset puts a share across a boundary of the rounding. -/
theorem share_counts (start : ℤ) {share : ℚ} (counts : 0 < share) :
    ∃ offset : ℚ, 0 ≤ offset ∧ offset ≤ 1 / 20000 ∧
      roundHalfEven 4 (start / 10 ^ 4 + offset) <
        roundHalfEven 4 (start / 10 ^ 4 + offset + share) := by
  obtain ⟨step, stepped⟩ : ∃ step, step = min share (1 / 20000) := ⟨_, rfl⟩
  have positive : 0 < step := stepped ▸ lt_min counts (by norm_num)
  have within : step ≤ share := stepped ▸ min_le_left _ _
  have small : step ≤ 1 / 20000 := stepped ▸ min_le_right _ _
  have near : (start : ℚ) / 10 ^ 4 + (1 / 20000 - step / 2) < (start + 1 / 2) / 10 ^ 4 := by
    rw [add_div]
    linarith
  have far : (start + 1 / 2 : ℚ) / 10 ^ 4 < start / 10 ^ 4 + (1 / 20000 - step / 2) + share := by
    rw [add_div]
    linarith
  exact ⟨1 / 20000 - step / 2, by linarith, by linarith,
    (roundHalfEven_le_decimal near).trans_lt (decimal_lt_roundHalfEven far)⟩

theorem not_ordered (alone : ¬SignalStandsIn trade) :
    ∃ gain, (scoreTrade (trade.scored gain (3 / 10))).overallScore <
      (scoreTrade (trade.scored gain 0)).overallScore := by
  obtain ⟨start, slope, least, most, steep, linear⟩ := base_linear trade
  have positive : 0 < slope := lt_of_lt_of_le (by norm_num) steep
  have counts : 0 < 20 / 100 * scoreEntryQuality trade.signalConfidence :=
    mul_pos (by norm_num) (scoreEntryQuality_pos alone)
  have whole := (scoreEntryQuality_mem trade.signalConfidence).2
  obtain ⟨offset, nonneg, small, crosses⟩ := share_counts start counts
  have gained : offset / slope ≤ 1 := (div_le_one positive).mpr (by linarith)
  have base : ∀ confidence, (trade.scored (offset / slope) confidence).base =
      start / 10 ^ 4 + offset := by
    intro confidence
    rw [linear _ confidence (div_nonneg nonneg positive.le) gained,
      mul_div_cancel₀ _ positive.ne']
  have top : (start : ℚ) / 10 ^ 4 ≤ 4500 / 10 ^ 4 := by
    gcongr
    exact_mod_cast most
  have bottom : (4000 : ℚ) / 10 ^ 4 ≤ start / 10 ^ 4 := by
    gcongr
    exact_mod_cast least
  refine ⟨offset / slope, ?_⟩
  have zero : (3 / 10 : ℚ) ≠ 0 := by norm_num
  rw [overallScore_eq, overallScore_eq, TradeData.overall, TradeData.overall, base, base,
    entry_zero, entry_filled zero, scoreEntryQuality_low zero le_rfl, mul_zero, add_zero,
    clamp_of_mem (by linarith) (by linarith), clamp_of_mem (by linarith) (by linarith)]
  exact crosses

/-! ## Tags -/

variable {order tags : List TradeTag} {tag : TradeTag}

theorem mem_sortedTags : tag ∈ sortedTags tags ↔ tag ∈ tags := by
  rw [sortedTags, (List.perm_insertionSort _ _).mem_iff, List.mem_dedup]

theorem sortedTags_nodup (tags : List TradeTag) : (sortedTags tags).Nodup :=
  (List.perm_insertionSort _ _).nodup_iff.mpr tags.nodup_dedup

theorem listTags_nodup (ordered : order.Nodup) (tags : List TradeTag) :
    (listTags order tags).Nodup := by
  have apart : List.Disjoint (order.filter (· ∈ tags))
      (sortedTags (tags.filter (· ∉ order))) := by
    intro tag placed unplaced
    have without := mem_sortedTags.mp unplaced
    simp only [List.mem_filter, decide_eq_true_eq] at placed without
    exact without.2 placed.1
  have whole := List.Nodup.append (ordered.filter _) (sortedTags_nodup _) apart
  exact whole.sublist (List.take_sublist _ _)

theorem listTags_short (order tags : List TradeTag) : (listTags order tags).length ≤ 6 :=
  List.length_take_le _ _

theorem mem_of_mem_listTags (listed : tag ∈ listTags order tags) : tag ∈ tags := by
  rcases List.mem_append.mp (List.mem_of_mem_take listed) with placed | unplaced
  · simpa using (List.mem_filter.mp placed).2
  · exact (List.mem_filter.mp (mem_sortedTags.mp unplaced)).1

theorem tagList_strengths (tags : List TradeTag) : TagList (normalizeStrengths tags) where
  nodup := listTags_nodup (by decide) _
  short := listTags_short _ _
  consistent := by
    rintro ⟨clean, lucky⟩
    have cleanGiven := mem_of_mem_listTags clean
    have luckyGiven := mem_of_mem_listTags lucky
    by_cases luck : TradeTag.reversionLuck ∈ tags
    · rw [if_pos luck] at cleanGiven
      simpa using (List.mem_filter.mp cleanGiven).2
    · rw [if_neg luck] at luckyGiven
      exact luck luckyGiven

theorem tagList_mistakes (unlucky : .reversionLuck ∉ tags) :
    TagList (normalizeMistakes tags) where
  nodup := listTags_nodup (by decide) _
  short := listTags_short _ _
  consistent := fun both => unlucky (mem_of_mem_listTags both.2)

theorem mem_tagIf {condition : Prop} [Decidable condition] {given : TradeTag}
    (tagged : tag ∈ tagIf condition given) : tag = given := by
  rw [tagIf] at tagged
  split_ifs at tagged
  · exact List.mem_singleton.mp tagged
  · cases tagged

theorem reversionLuck_not_mistake (trade : TradeData) (entryQ exitQ rrScore sigAlign : ℚ)
    (pnl : Option ℚ) (context : TradeContext) :
    .reversionLuck ∉ classifyMistakes entryQ exitQ rrScore sigAlign pnl context ++
      (deriveContextualSystemTags trade context).1 := by
  intro lucky
  rw [classifyMistakes, deriveContextualSystemTags] at lucky
  simp only [List.mem_append, mem_sortedTags] at lucky
  rcases lucky with
    (((((((late | late) | late) | late) | late) | late) | late) | late) |
      (((((late | late) | late) | late) | late) | late) <;> cases mem_tagIf late

/-! ## Sides -/

theorem mirrorSide_mirrorSide (side : String) : mirrorSide (mirrorSide side) = side := by
  simp only [mirrorSide]
  split_ifs <;> simp_all

theorem mirrorSide_eq_empty {side : String} : mirrorSide side = "" ↔ side = "" := by
  constructor
  · intro mirrored
    rw [← mirrorSide_mirrorSide side, mirrored]
    rfl
  · rintro rfl
    rfl

theorem mirrorSide_inj {side other : String} : mirrorSide side = mirrorSide other ↔ side = other :=
  (Function.LeftInverse.injective mirrorSide_mirrorSide).eq_iff

theorem mirrorSide_buys {side : String} :
    mirrorSide side ∈ ["buy", "long"] ↔ side ∈ ["sell", "short"] := by
  simp only [mirrorSide]
  split_ifs <;> simp_all

theorem mirrorSide_sells {side : String} :
    mirrorSide side ∈ ["sell", "short"] ↔ side ∈ ["buy", "long"] := by
  rw [← mirrorSide_buys, mirrorSide_mirrorSide]

theorem sameSide_mirror (side action : String) :
    mirrorSide side ∈ ["buy", "long"] ∧ mirrorSide action ∈ ["buy", "long"] ∨
        mirrorSide side ∈ ["sell", "short"] ∧ mirrorSide action ∈ ["sell", "short"] ↔
      side ∈ ["buy", "long"] ∧ action ∈ ["buy", "long"] ∨
        side ∈ ["sell", "short"] ∧ action ∈ ["sell", "short"] := by
  rw [mirrorSide_buys, mirrorSide_buys, mirrorSide_sells, mirrorSide_sells]
  exact or_comm

theorem scoreSignalAlignment_mirror (mirrored : Mirrored trade other) :
    scoreSignalAlignment other.side other.action =
      scoreSignalAlignment trade.side trade.action := by
  simp only [scoreSignalAlignment, mirrored.side, mirrored.action, mirrorSide_eq_empty,
    mirrorSide_inj, sameSide_mirror]

theorem directionKey_mirror (mirrored : Mirrored trade other) :
    directionKey other = mirrorSide (directionKey trade) := by
  simp only [directionKey, mirrored.positionSide, mirrored.side, ne_eq, mirrorSide_eq_empty]
  split_ifs <;> rfl

theorem priceMovePercent_eq (side : String) (trade : TradeData) :
    priceMovePercent side trade.entryPrice trade.exitPrice =
      (priceChange trade).map (· * directionSignFromSideEvent (lower (strip side)) true) := by
  simp only [priceMovePercent, priceChange]
  generalize trade.entryPrice = entry
  generalize trade.exitPrice = exit
  cases entry with
  | none => rfl
  | some entry =>
      cases exit with
      | none => rfl
      | some exit =>
          by_cases nonpos : entry ≤ 0
          · simp only [if_pos nonpos, Option.map_none]
          · simp only [if_neg nonpos, Option.map_some]

/-- A long that closes and its mirrored short moved alike. -/
theorem movePct_mirror (long : ClosesLong trade) (mirrored : Mirrored trade other) :
    priceMovePercent (directionKey other) other.entryPrice other.exitPrice =
      priceMovePercent (directionKey trade) trade.entryPrice trade.exitPrice := by
  have opposite : directionSignFromSideEvent (lower (strip (directionKey other))) true =
      -directionSignFromSideEvent (lower (strip (directionKey trade))) true := by
    rw [directionKey_mirror mirrored]
    rcases List.mem_pair.mp long with sold | held
    · rw [sold]
      decide +kernel
    · rw [held]
      decide +kernel
  rw [priceMovePercent_eq, priceMovePercent_eq, mirrored.prices, Option.map_map, opposite]
  generalize directionSignFromSideEvent (lower (strip (directionKey trade))) true = direction
  refine congrArg (Option.map · (priceChange trade)) (funext fun change => ?_)
  exact neg_mul_neg change direction

theorem buildTradeContext_mirror (long : ClosesLong trade) (mirrored : Mirrored trade other) :
    buildTradeContext other = { buildTradeContext trade with side := normText other.side } := by
  have moved := movePct_mirror long mirrored
  obtain ⟨side, action, positionSide, entryPrice, exitPrice, rfl⟩ := mirrored.turned
  rw [directionKey, directionKey] at moved
  simp only [buildTradeContext, moved]
  rfl

theorem classifyMistakes_side (entryQ exitQ rrScore sigAlign : ℚ) (pnl : Option ℚ)
    (context : TradeContext) (side : String) :
    classifyMistakes entryQ exitQ rrScore sigAlign pnl { context with side } =
      classifyMistakes entryQ exitQ rrScore sigAlign pnl context := rfl

theorem classifyStrengths_side (entryQ exitQ rrScore sigAlign : ℚ) (pnl : Option ℚ)
    (context : TradeContext) (side : String) :
    classifyStrengths entryQ exitQ rrScore sigAlign pnl { context with side } =
      classifyStrengths entryQ exitQ rrScore sigAlign pnl context := rfl

theorem contextual_turned (trade : TradeData) (side action positionSide : Option String)
    (entryPrice exitPrice : Option ℚ) (context : TradeContext) (norm : String) :
    deriveContextualSystemTags (trade.turned side action positionSide entryPrice exitPrice)
      { context with side := norm } = deriveContextualSystemTags trade context := rfl

theorem scoreTrade_mirror (long : ClosesLong trade) (mirrored : Mirrored trade other) :
    scoreTrade other = { scoreTrade trade with side := other.side } := by
  have aligned := scoreSignalAlignment_mirror mirrored
  have context := buildTradeContext_mirror long mirrored
  obtain ⟨side, action, positionSide, entryPrice, exitPrice, rfl⟩ := mirrored.turned
  rw [scoreTrade, scoreTrade, aligned, context]
  dsimp only
  rw [classifyMistakes_side, classifyStrengths_side, contextual_turned]
  rfl

/-! ## Every trade -/

theorem mistakes_eq (trade : TradeData) :
    ∃ entryQ exitQ rrScore sigAlign, (scoreTrade trade).mistakes =
      normalizeMistakes (classifyMistakes entryQ exitQ rrScore sigAlign trade.pnl
        (buildTradeContext trade) ++
          (deriveContextualSystemTags trade (buildTradeContext trade)).1) := by
  rw [scoreTrade]
  dsimp only
  exact ⟨_, _, _, _, rfl⟩

theorem strengths_eq (trade : TradeData) :
    ∃ tags, (scoreTrade trade).strengths = normalizeStrengths tags := by
  rw [scoreTrade]
  dsimp only
  exact ⟨_, rfl⟩

/-- The laws hold of a trade exactly where a confidence of zero is told from a missing one by the
confidence of the signal. -/
theorem tradeLaws_iff (trade : TradeData) : TradeLaws trade ↔ SignalStandsIn trade := by
  obtain ⟨entryQ, exitQ, rrScore, sigAlign, mistakes⟩ := mistakes_eq trade
  obtain ⟨tags, strengths⟩ := strengths_eq trade
  constructor
  · intro laws
    by_contra alone
    obtain ⟨gain, above⟩ := not_ordered alone
    exact absurd (laws.ordered le_rfl le_rfl (by norm_num) (by norm_num)) above.not_ge
  · intro standsIn
    exact
      { bounded := overallScore_mem trade
        ordered := fun better nonneg surer _ => ordered_of_standsIn standsIn better nonneg surer
        graded := fun other above => grade_mono above
        mistakes := mistakes ▸ tagList_mistakes (reversionLuck_not_mistake trade _ _ _ _ _ _)
        strengths := strengths ▸ tagList_strengths tags
        mirrored := scoreTrade_mirror }

/-- A gain of two percent without a confidence of its signal scores more with a confidence of zero
than with one tenth. -/
theorem zero_confidence_breaks_laws :
    ¬TradeLaws
      { symbol := some "BTC/USD"
        side := some "sell"
        pnl := some 12
        pnlPercent := some 2 } := by
  intro laws
  have ordered := @laws.ordered 2 2 0 (1 / 10) le_rfl le_rfl (by norm_num) (by norm_num)
  have aligned : scoreSignalAlignment (some "sell") none = 1 := by
    rw [scoreSignalAlignment]
    exact if_pos (Or.inr rfl)
  simp only [overallScore_eq, TradeData.overall, TradeData.base, TradeData.entry, TradeData.scored,
    aligned] at ordered
  revert ordered
  decide +kernel

end TradingControl.Learning
