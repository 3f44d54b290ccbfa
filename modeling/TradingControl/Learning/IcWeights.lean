import Mathlib.Algebra.BigOperators.Ring.List
import TradingControl.Learning.OneTrade
import TradingControl.Python.Rounding

/-!
# Weights of the factors

The updater correlates the composite scores, and the signs of the momentum that these stand for,
with the profits.  Factors with a weak correlation are left out, negative ones count for nothing,
and the rest is scaled to a sum of one and rounded; if nothing is left, the composite score has all
of the weight.
-/

namespace TradingControl.Learning

open Python

/-! ## Weights -/

/-- `active`. -/
def activeFactors (threshold : ℚ) (rawFactors : Dict String ℚ) : Dict String ℚ :=
  (rawFactors.filter fun factor => threshold < |factor.2|).map fun factor =>
    (factor.1, max factor.2 0)

/-- The weights when no factor is left. -/
def fallbackWeights : Dict String ℚ := [("composite_score", 1)]

/-- `weights`. -/
def icWeights (threshold : ℚ) (rawFactors : Dict String ℚ) : Dict String ℚ :=
  let active := activeFactors threshold rawFactors
  let total := (active.map Prod.snd).sum
  if total ≤ 0 then fallbackWeights
  else active.map fun factor => (factor.1, roundHalfEven 6 (factor.2 / total))

/-- `weights.get(factor, 0.0)`. -/
def weightOf (weights : Dict String ℚ) (factor : String) : ℚ := (weights.lookup factor).getD 0

/-- What is published of a factor. -/
structure FactorIc where
  factorName : String
  icScore : ℚ
  weight : ℚ
deriving DecidableEq, Repr

/-- The weights that are written, the correlations that are persisted and what is published. -/
structure IcUpdate where
  weights : Dict String ℚ
  rawFactors : Dict String ℚ
  history : List FactorIc
deriving DecidableEq, Repr

namespace IcUpdater

/-- `raw_factors`. -/
def rawFactors (recent : List (ℚ × ℚ)) : Option (Dict String ℚ) := do
  let scores := recent.map Prod.fst
  let pnls := recent.map Prod.snd
  let compositeIc ← spearmanCorrelation scores pnls
  let momentumSignals := scores.map fun score => if 1 / 2 < score then (1 : ℚ) else -1
  let momentumIc ← spearmanCorrelation momentumSignals pnls
  return [("composite_score", compositeIc), ("momentum", momentumIc)]

/-- `_recompute_and_publish`, if there is enough data. -/
def recomputeAndPublish (updater : IcUpdater) (threshold : ℚ) : Option IcUpdate :=
  if updater.series.length < 3 then none
  else do
    let rawFactors ← rawFactors updater.series
    let weights := icWeights threshold rawFactors
    return {
      weights := weights
      rawFactors := rawFactors
      history := rawFactors.map fun factor =>
        ⟨factor.1, roundHalfEven 6 factor.2, weightOf weights factor.1⟩ }

end IcUpdater

/-! ## Shares -/

section

variable {threshold : ℚ} {rawFactors : Dict String ℚ}

/-- The share of a correlation in a total, if it is strong enough. -/
def icShare (threshold total ic : ℚ) : ℚ :=
  if threshold < |ic| then roundHalfEven 6 (max ic 0 / total) else 0

/-- A stronger correlation has no smaller share. -/
theorem icShare_mono {total : ℚ} (positive : 0 < total) {weak strong : ℚ} (order : weak ≤ strong) :
    icShare threshold total weak ≤ icShare threshold total strong := by
  have nonneg (ic : ℚ) : 0 ≤ icShare threshold total ic := by
    rw [icShare]
    split_ifs
    · exact roundHalfEven_nonneg (div_nonneg (le_max_right _ _) positive.le)
    · exact le_rfl
  rcases le_or_gt weak 0 with negative | rising
  · have none : icShare threshold total weak = 0 := by
      rw [icShare, max_eq_right negative, zero_div, roundHalfEven_zero, ite_self]
    exact none.trans_le (nonneg strong)
  · have strongRising : 0 < strong := rising.trans_le order
    rw [icShare, icShare, abs_of_pos rising, abs_of_pos strongRising]
    split_ifs with enough stronger stronger
    · exact roundHalfEven_mono (div_le_div_of_nonneg_right (max_le_max_right 0 order) positive.le)
    · exact absurd (enough.trans_le order) stronger
    · exact roundHalfEven_nonneg (div_nonneg (le_max_right _ _) positive.le)
    · exact le_rfl

theorem lt_of_icShare_pos {total ic : ℚ} (share : 0 < icShare threshold total ic) :
    threshold < ic := by
  rw [icShare] at share
  split_ifs at share with enough
  · rcases le_or_gt ic 0 with negative | rising
    · rw [max_eq_right negative, zero_div, roundHalfEven_zero] at share
      exact absurd share (lt_irrefl 0)
    · rwa [abs_of_pos rising] at enough
  · exact absurd share (lt_irrefl 0)

theorem lookup_activeFactors (distinct : (Dict.keys rawFactors).Nodup) {factor : String} {ic : ℚ}
    (member : (factor, ic) ∈ rawFactors) :
    (activeFactors threshold rawFactors).lookup factor =
      if threshold < |ic| then some (max ic 0) else none := by
  rw [activeFactors, Dict.lookup_map_value fun ic => max ic 0]
  have kept : (Dict.keys (rawFactors.filter fun factor => threshold < |factor.2|)).Nodup :=
    distinct.sublist ((List.filter_sublist).map Prod.fst)
  split_ifs with enough
  · rw [Dict.lookup_of_mem kept (List.mem_filter.mpr ⟨member, decide_eq_true enough⟩),
      Option.map_some]
  · rw [Option.map_eq_none_iff]
    cases found : (rawFactors.filter fun factor => threshold < |factor.2|).lookup factor with
    | none => rfl
    | some other =>
        obtain ⟨inside, strong⟩ := List.mem_filter.mp (Dict.mem_of_lookup found)
        have same := (Dict.lookup_of_mem distinct inside).symm.trans
          (Dict.lookup_of_mem distinct member)
        cases same
        exact absurd (of_decide_eq_true strong) enough

/-- Unless they are the fallback, the weights are the shares in a positive total. -/
theorem icWeights_eq (threshold : ℚ) (rawFactors : Dict String ℚ) :
    icWeights threshold rawFactors = fallbackWeights ∨
      ∃ total, 0 < total ∧ total = ((activeFactors threshold rawFactors).map Prod.snd).sum ∧
        icWeights threshold rawFactors = (activeFactors threshold rawFactors).map fun factor =>
          (factor.1, roundHalfEven 6 (factor.2 / total)) := by
  rw [icWeights]
  split_ifs with empty
  · exact Or.inl rfl
  · exact Or.inr ⟨_, not_le.mp empty, rfl, rfl⟩

theorem weightOf_shares (distinct : (Dict.keys rawFactors).Nodup) (total : ℚ) {factor : String}
    {ic : ℚ} (member : (factor, ic) ∈ rawFactors) :
    weightOf ((activeFactors threshold rawFactors).map fun factor =>
        (factor.1, roundHalfEven 6 (factor.2 / total))) factor = icShare threshold total ic := by
  rw [weightOf, Dict.lookup_map_value (fun value => roundHalfEven 6 (value / total)),
    lookup_activeFactors distinct member, icShare]
  split_ifs <;> rfl

/-- The rounded shares of a total add up to one, but for what rounding moves. -/
theorem abs_sum_shares_sub_le (values : List ℚ) (positive : 0 < values.sum) :
    |(values.map fun value => roundHalfEven 6 (value / values.sum)).sum - 1| ≤
      values.length * (1 / 2 / 10 ^ 6) := by
  have whole : (values.map (· / values.sum)).sum = 1 := by
    simp only [div_eq_mul_inv]
    rw [List.sum_map_mul_right, List.map_id', mul_inv_cancel₀ positive.ne']
  have error := abs_sum_roundHalfEven_sub_le 6 (values.map (· / values.sum))
  rw [List.map_map, whole, List.length_map] at error
  exact error

theorem nonneg_of_mem_activeFactors {factor : String × ℚ}
    (member : factor ∈ activeFactors threshold rawFactors) : 0 ≤ factor.2 := by
  obtain ⟨raw, -, rfl⟩ := List.mem_map.mp member
  exact le_max_right _ _

end

/-! ## The distribution -/

/-- Weights are a distribution: they are some, none of them is negative and they add up to one, but
for what rounding moves.  Unless they are the fallback, they follow the correlations. -/
structure IsIcDistribution (threshold : ℚ) (weights rawFactors : Dict String ℚ) : Prop where
  nonempty : weights ≠ []
  nonneg : ∀ factor ∈ weights, 0 ≤ factor.2
  sum : |(weights.map Prod.snd).sum - 1| ≤ 1 / 10 ^ 6
  strong : weights = fallbackWeights ∨ ∀ factor ∈ rawFactors,
    0 < weightOf weights factor.1 → threshold < factor.2
  ordered : weights = fallbackWeights ∨ ∀ weak ∈ rawFactors, ∀ strong ∈ rawFactors,
    weak.2 < strong.2 → weightOf weights weak.1 ≤ weightOf weights strong.1

theorem isIcDistribution_icWeights (threshold : ℚ) {rawFactors : Dict String ℚ}
    (distinct : (Dict.keys rawFactors).Nodup) (few : rawFactors.length ≤ 2) :
    IsIcDistribution threshold (icWeights threshold rawFactors) rawFactors := by
  rcases icWeights_eq threshold rawFactors with fallback | ⟨total, positive, sum, shares⟩
  · rw [fallback]
    exact ⟨by decide, by simp [fallbackWeights], by norm_num [fallbackWeights], Or.inl rfl,
      Or.inl rfl⟩
  · rw [shares]
    have active : (activeFactors threshold rawFactors).length ≤ 2 := by
      rw [activeFactors, List.length_map]
      exact (List.length_filter_le _ _).trans few
    constructor
    · intro empty
      rw [List.map_eq_nil_iff.mp empty] at sum
      exact positive.ne' sum
    · intro factor member
      obtain ⟨raw, inside, rfl⟩ := List.mem_map.mp member
      exact roundHalfEven_nonneg (div_nonneg (nonneg_of_mem_activeFactors inside) positive.le)
    · have error := abs_sum_shares_sub_le ((activeFactors threshold rawFactors).map Prod.snd)
        (sum ▸ positive)
      rw [← sum, List.map_map, List.length_map] at error
      rw [List.map_map]
      refine error.trans ?_
      have two : ((activeFactors threshold rawFactors).length : ℚ) ≤ 2 := by exact_mod_cast active
      linarith
    · refine Or.inr fun factor member weight => ?_
      rw [weightOf_shares distinct total member] at weight
      exact lt_of_icShare_pos weight
    · refine Or.inr fun weak member strong strongMember order => ?_
      rw [weightOf_shares distinct total member, weightOf_shares distinct total strongMember]
      exact icShare_mono positive order.le

namespace IcUpdater

/-- Both factors have a correlation. -/
theorem rawFactors_eq (recent : List (ℚ × ℚ)) : ∃ compositeIc momentumIc,
    rawFactors recent = some [("composite_score", compositeIc), ("momentum", momentumIc)] := by
  have correlates (xs : List ℚ) (length : xs.length = recent.length) :
      ∃ ic, spearmanCorrelation xs (recent.map Prod.snd) = some ic := by
    rw [← Option.ne_none_iff_exists', ne_eq, spearmanCorrelation_eq_none_iff, List.length_map,
      length]
    exact fun longer => lt_irrefl _ longer.2
  obtain ⟨compositeIc, composite⟩ := correlates (recent.map Prod.fst) (List.length_map _)
  obtain ⟨momentumIc, momentum⟩ := correlates
    ((recent.map Prod.fst).map fun score => if 1 / 2 < score then (1 : ℚ) else -1) (by simp)
  refine ⟨compositeIc, momentumIc, ?_⟩
  simp only [rawFactors, composite, momentum]
  rfl

end IcUpdater

end TradingControl.Learning
