import Mathlib.Algebra.BigOperators.Ring.List
import Mathlib.Algebra.Order.BigOperators.Group.List
import TradingControl.Cognitive.Decision
import TradingControl.Cognitive.Grading
import TradingControl.Python.Reference

/-!
# Learning and drift

Attribution splits the profit of a trade over the signals, the tracker folds the attributions into
statistics of each signal, and the learning engine observes which signals stand out.  The drift
monitor compares the recent half of a series with the half before it.
-/

namespace TradingControl.Cognitive

open Python

/-! ## Attribution -/

structure Attribution where
  contributions : Dict String ℚ
  shares : Dict String ℚ
  pnlAttribution : Dict String ℚ
  realizedPnl : ℚ

/-- `as_dict`. -/
def Attribution.asDict (attribution : Attribution) : Payload :=
  [("type", .str EventType.attribution.value),
    ("contributions", .dict (floatDict attribution.contributions)),
    ("shares", .dict (floatDict attribution.shares)),
    ("pnl_attribution", .dict (floatDict attribution.pnlAttribution)),
    ("realized_pnl", .float attribution.realizedPnl)]

/-- Split a profit over contributions. -/
def attributeTo (contributions : Dict String ℚ) (realizedPnl : ℚ) : Attribution :=
  let total := (contributions.map fun item => |item.2|).sum
  let shares := contributions.map fun (key, value) =>
    (key, if total > 0 then roundHalfEven 6 (|value| / total) else 0)
  { contributions, shares
    pnlAttribution := shares.map fun (key, share) => (key, roundHalfEven 6 (share * realizedPnl))
    realizedPnl := roundHalfEven 6 realizedPnl }

/-- Contributions of the scored signals in a breakdown. -/
def readContributions (runtime : Runtime) (breakdown : Payload) :
    List String → Except Raised (Dict String ℚ)
  | [] => .ok []
  | key :: rest => do
      let contribution ← floatField runtime breakdown key 0
      return (key, contribution) :: (← readContributions runtime breakdown rest)

/-- `attribute`. -/
def attributePnl (runtime : Runtime) (breakdown : Payload) (realizedPnl : ℚ) :
    Except Raised Attribution := do
  return attributeTo (← readContributions runtime breakdown weightKeys) realizedPnl

/-! ## Importance -/

/-- `_SignalAcc`. -/
structure SignalAcc where
  samples : ℤ := 0
  absContribution : ℚ := 0
  pnl : ℚ := 0
  correct : ℤ := 0
deriving DecidableEq

abbrev ImportanceTracker := Dict String SignalAcc

namespace ImportanceTracker

/-- A tracker without trades. -/
def fresh : ImportanceTracker := weightKeys.map fun key => (key, {})

/-- `update`. -/
def update (tracker : ImportanceTracker) (attribution : Attribution) (outcomeSign : ℤ) :
    ImportanceTracker :=
  tracker.map fun (key, acc) =>
    let contribution := (attribution.contributions.lookup key).getD 0
    (key,
      { samples := acc.samples + 1
        absContribution := acc.absContribution + |contribution|
        pnl := acc.pnl + (attribution.pnlAttribution.lookup key).getD 0
        correct := if sign contribution ≠ 0 ∧ sign contribution = outcomeSign then acc.correct + 1
          else acc.correct })

/-- `metadata`. -/
def metadata (tracker : ImportanceTracker) : Dict String SignalStats :=
  tracker.map fun (key, acc) =>
    (key,
      { samples := acc.samples
        avgAbsContribution :=
          if acc.samples ≠ 0 then roundHalfEven 6 (acc.absContribution / acc.samples) else 0
        totalPnlAttribution := roundHalfEven 6 acc.pnl
        correctRate := if acc.samples ≠ 0 then roundHalfEven 6 (acc.correct / acc.samples) else 0 })

end ImportanceTracker

/-! ## Observations -/

/-- What an observation rests on. -/
structure Evidence where
  agentGrade : String
  correctRate : ℚ
  contribution : ℚ
  sampleSize : ℤ

structure Observation where
  observation : String
  confidence : ℚ
  signal : String
  direction : String
  evidence : Evidence

/-- `as_dict`. -/
def Observation.asDict (observation : Observation) : Payload :=
  [("type", .str EventType.observation.value), ("observation", .str observation.observation),
    ("confidence", .float observation.confidence), ("signal", .str observation.signal),
    ("direction", .str observation.direction),
    ("evidence", .dict
      [("agent_grade", .str observation.evidence.agentGrade),
        ("correct_rate", .float observation.evidence.correctRate),
        ("contribution", .float observation.evidence.contribution),
        ("sample_size", .int observation.evidence.sampleSize)])]

/-- `LearningEngine` with its defaults. -/
structure LearningEngine where
  minSamples : ℤ := 30
  outperformRate : ℚ := 60 / 100
  underperformRate : ℚ := 40 / 100

namespace LearningEngine

def confidence (engine : LearningEngine) (stats : SignalStats) : ℚ :=
  let effect := |stats.correctRate - 5 / 10| * 2
  let coverage := min 1 (stats.samples / (engine.minSamples * 3) : ℚ)
  roundHalfEven 2 (max 0 (min 1 (6 / 10 * effect + 4 / 10 * coverage)))

def observeSignal (runtime : Runtime) (engine : LearningEngine) (signal : String)
    (stats : SignalStats) : Option Observation :=
  if stats.samples < engine.minSamples then none
  else
    let observed (direction : String) : Observation :=
      { observation := signal ++ "_agent_" ++ direction
        confidence := engine.confidence stats
        signal
        direction
        evidence :=
          { agentGrade := (gradeAgent runtime signal stats engine.minSamples).grade
            correctRate := stats.correctRate
            contribution := stats.totalPnlAttribution
            sampleSize := stats.samples } }
    if stats.correctRate ≥ engine.outperformRate ∧ stats.totalPnlAttribution ≥ 0 then
      some (observed "outperforming")
    else if stats.correctRate ≤ engine.underperformRate ∨ stats.totalPnlAttribution < 0 then
      some (observed "underperforming")
    else none

/-- `observe`. -/
def observe (runtime : Runtime) (engine : LearningEngine) (metadata : Dict String SignalStats) :
    List Observation :=
  metadata.filterMap fun (signal, stats) => engine.observeSignal runtime signal stats

end LearningEngine

/-! ## Drift -/

structure DriftAlert where
  metric : String
  direction : String
  recent : ℚ
  baseline : ℚ
  delta : ℚ

/-- `as_dict`. -/
def DriftAlert.asDict (alert : DriftAlert) : Payload :=
  [("type", .str EventType.drift.value), ("metric", .str alert.metric),
    ("direction", .str alert.direction), ("recent", .float alert.recent),
    ("baseline", .float alert.baseline), ("delta", .float alert.delta)]

/-- A registered metric with its samples. -/
structure DriftSeries where
  higherIsBetter : Bool
  threshold : ℚ
  samples : List ℚ := []

structure DriftMonitor where
  window : ℕ := 20
  minSamples : ℕ := 10
  series : Dict String DriftSeries := []

namespace DriftMonitor

/-- `register`. -/
def register (monitor : DriftMonitor) (metric : String) (higherIsBetter : Bool) (threshold : ℚ) :
    DriftMonitor :=
  { monitor with series := Dict.set metric { higherIsBetter, threshold } monitor.series }

/-- `observe`: a full series drops its oldest sample. -/
def observe (monitor : DriftMonitor) (metric : String) (value : ℚ) : DriftMonitor :=
  { monitor with
    series := Dict.modify metric (fun series =>
      { series with samples := lastItems (monitor.window * 2) (series.samples ++ [value]) })
      monitor.series }

/-- The alert of one metric, if its recent half has degraded. -/
def assessSeries (monitor : DriftMonitor) (metric : String) (series : DriftSeries) :
    Option DriftAlert :=
  if series.samples.length < 2 * monitor.minSamples then none
  else
    let half := series.samples.length / 2
    let baseline := fmean (series.samples.take half)
    let recent := fmean (series.samples.drop half)
    let degradation := if series.higherIsBetter then baseline - recent else recent - baseline
    if degradation > series.threshold then
      some
        { metric
          direction := if series.higherIsBetter then "down" else "up"
          recent := roundHalfEven 4 recent
          baseline := roundHalfEven 4 baseline
          delta := roundHalfEven 4 degradation }
    else none

/-- `assess`. -/
def assess (monitor : DriftMonitor) : List DriftAlert :=
  monitor.series.filterMap fun (metric, series) => monitor.assessSeries metric series

def ofLoop : DriftMonitor :=
  ((({} : DriftMonitor).register "trade_grade_score" true 8).register "decision_regret_pct" false
    (5 / 10)).register "direction_correct" true (15 / 100)

end DriftMonitor

end TradingControl.Cognitive

/-!
# What attributions add up to

A profit is split over the scored signals by rounded shares, and each part is rounded again.  Both
roundings move a number by half a place, so shares and parts add up to one and to the profit within
half a place for each signal.
-/

namespace TradingControl.Cognitive

open Python

/-- The size of all contributions together. -/
def totalContribution (contributions : Dict String ℚ) : ℚ :=
  (contributions.map fun item => |item.2|).sum

/-- An attribution accounts for a profit, with a number of signals to split it over. -/
structure Accounts (signals : ℕ) (attribution : Attribution) (realizedPnl : ℚ) : Prop where
  nonneg : ∀ item ∈ attribution.shares, 0 ≤ item.2
  shares : |(attribution.shares.map Prod.snd).sum - 1| ≤ signals * (5 / 10 ^ 7)
  parts : |(attribution.pnlAttribution.map Prod.snd).sum - realizedPnl| ≤
    signals * (5 / 10 ^ 7) * (1 + |realizedPnl|)
  signs : ∀ item ∈ attribution.pnlAttribution, sign item.2 = sign realizedPnl ∨ item.2 = 0
  ordered : ∀ small large contribution larger share largerShare,
    attribution.contributions.lookup small = some contribution →
    attribution.contributions.lookup large = some larger →
    attribution.shares.lookup small = some share →
    attribution.shares.lookup large = some largerShare →
    |contribution| ≤ |larger| → share ≤ largerShare

/-! ## Shares -/

section Shares

variable {contributions : Dict String ℚ} (realizedPnl : ℚ)

theorem totalContribution_pos (nonzero : ∃ item ∈ contributions, item.2 ≠ 0) :
    0 < totalContribution contributions := by
  obtain ⟨item, member, contributes⟩ := nonzero
  have part : |item.2| ≤ totalContribution contributions := by
    refine List.single_le_sum (fun size isSize => ?_) _ (List.mem_map_of_mem member)
    obtain ⟨other, -, rfl⟩ := List.mem_map.mp isSize
    exact abs_nonneg _
  exact (abs_pos.mpr contributes).trans_le part

theorem shares_of_pos (positive : 0 < totalContribution contributions) :
    (attributeTo contributions realizedPnl).shares = contributions.map fun item =>
      (item.1, roundHalfEven 6 (|item.2| / totalContribution contributions)) := by
  simp only [attributeTo]
  refine List.map_congr_left fun item _ => ?_
  exact congrArg _ (if_pos positive)

theorem pnlAttribution_eq (contributions : Dict String ℚ) :
    (attributeTo contributions realizedPnl).pnlAttribution =
      (attributeTo contributions realizedPnl).shares.map fun item =>
        (item.1, roundHalfEven 6 (item.2 * realizedPnl)) := rfl

theorem lookup_shares (positive : 0 < totalContribution contributions) {key : String}
    {contribution : ℚ} (found : contributions.lookup key = some contribution) :
    (attributeTo contributions realizedPnl).shares.lookup key =
      some (roundHalfEven 6 (|contribution| / totalContribution contributions)) := by
  rw [shares_of_pos realizedPnl positive]
  have mapped := Dict.lookup_map_value
    (fun value => roundHalfEven 6 (|value| / totalContribution contributions)) key contributions
  rw [mapped, found, Option.map_some]

/-- Before the rounding the shares add up to one. -/
theorem sum_exact_shares (positive : 0 < totalContribution contributions) :
    (contributions.map fun item => |item.2| / totalContribution contributions).sum = 1 := by
  simp only [div_eq_mul_inv]
  rw [List.sum_map_mul_right]
  exact mul_inv_cancel₀ positive.ne'

theorem abs_sum_shares_sub_one_le (positive : 0 < totalContribution contributions) :
    |((attributeTo contributions realizedPnl).shares.map Prod.snd).sum - 1| ≤
      contributions.length * (5 / 10 ^ 7) := by
  have rounded := abs_sum_roundHalfEven_sub_le 6
    (contributions.map fun item => |item.2| / totalContribution contributions)
  rw [sum_exact_shares positive, List.map_map, List.length_map] at rounded
  rw [shares_of_pos realizedPnl positive, List.map_map]
  norm_num at rounded ⊢
  exact rounded

end Shares

/-! ## Parts of the profit -/

theorem abs_sum_parts_sub_le (attribution : Attribution) (realizedPnl : ℚ)
    (isParts : attribution.pnlAttribution = attribution.shares.map fun item =>
      (item.1, roundHalfEven 6 (item.2 * realizedPnl))) {signals : ℕ}
    (size : attribution.shares.length = signals)
    (shares : |(attribution.shares.map Prod.snd).sum - 1| ≤ signals * (5 / 10 ^ 7)) :
    |(attribution.pnlAttribution.map Prod.snd).sum - realizedPnl| ≤
      signals * (5 / 10 ^ 7) * (1 + |realizedPnl|) := by
  have rounded := abs_sum_roundHalfEven_sub_le 6
    (attribution.shares.map fun item => item.2 * realizedPnl)
  rw [List.map_map, List.length_map, List.sum_map_mul_right, size] at rounded
  rw [isParts, List.map_map]
  set parts := (attribution.shares.map
    (roundHalfEven 6 ∘ fun item => item.2 * realizedPnl)).sum
  set share := (attribution.shares.map Prod.snd).sum
  have places : (1 / 2 / 10 ^ 6 : ℚ) = 5 / 10 ^ 7 := by norm_num
  rw [places] at rounded
  change |parts - realizedPnl| ≤ _
  calc |parts - realizedPnl|
      = |(parts - share * realizedPnl) + (share - 1) * realizedPnl| := by congr 1; ring
    _ ≤ |parts - share * realizedPnl| + |(share - 1) * realizedPnl| := abs_add_le _ _
    _ = |parts - share * realizedPnl| + |share - 1| * |realizedPnl| := by rw [abs_mul]
    _ ≤ signals * (5 / 10 ^ 7) + signals * (5 / 10 ^ 7) * |realizedPnl| := by
        have scaled := mul_le_mul_of_nonneg_right shares (abs_nonneg realizedPnl)
        exact add_le_add rounded scaled
    _ = signals * (5 / 10 ^ 7) * (1 + |realizedPnl|) := by ring

/-- A part of a share that is not negative has the sign of the profit. -/
theorem sign_part {share realizedPnl : ℚ} (nonneg : 0 ≤ share) :
    sign (roundHalfEven 6 (share * realizedPnl)) = sign realizedPnl ∨
      roundHalfEven 6 (share * realizedPnl) = 0 := by
  rcases nonneg.eq_or_lt with rfl | positive
  · rw [zero_mul, roundHalfEven_zero]
    exact .inr rfl
  · rcases sign_roundHalfEven 6 (share * realizedPnl) with same | zero
    · refine .inl (same.trans ?_)
      simp only [sign, mul_pos_iff_of_pos_left positive, mul_neg_iff, positive, positive.not_gt,
        true_and, false_and, or_false]
    · exact .inr zero

/-! ## Attributions -/

theorem attributeTo_accounts {contributions : Dict String ℚ}
    (nonzero : ∃ item ∈ contributions, item.2 ≠ 0) (realizedPnl : ℚ) :
    Accounts contributions.length (attributeTo contributions realizedPnl) realizedPnl := by
  have positive := totalContribution_pos nonzero
  have nonneg : ∀ item ∈ (attributeTo contributions realizedPnl).shares, 0 ≤ item.2 := by
    rw [shares_of_pos realizedPnl positive]
    intro item member
    obtain ⟨source, -, rfl⟩ := List.mem_map.mp member
    exact roundHalfEven_nonneg (div_nonneg (abs_nonneg _) positive.le)
  have shares := abs_sum_shares_sub_one_le realizedPnl positive
  refine ⟨nonneg, shares, ?_, ?_, ?_⟩
  · refine abs_sum_parts_sub_le _ realizedPnl rfl ?_ shares
    rw [shares_of_pos realizedPnl positive, List.length_map]
  · intro item member
    rw [pnlAttribution_eq] at member
    obtain ⟨share, isShare, rfl⟩ := List.mem_map.mp member
    exact sign_part (nonneg share isShare)
  · intro small large contribution larger share largerShare isSmall isLarge found foundLarger order
    change contributions.lookup small = _ at isSmall
    change contributions.lookup large = _ at isLarge
    rw [lookup_shares realizedPnl positive isSmall, Option.some.injEq] at found
    rw [lookup_shares realizedPnl positive isLarge, Option.some.injEq] at foundLarger
    rw [← found, ← foundLarger]
    exact roundHalfEven_mono (div_le_div_of_nonneg_right order positive.le)

theorem length_readContributions {runtime : Runtime} {breakdown : Payload} {keys : List String}
    {contributions : Dict String ℚ}
    (read : readContributions runtime breakdown keys = .ok contributions) :
    contributions.length = keys.length := by
  induction keys generalizing contributions with
  | nil =>
      rw [readContributions, Except.ok.injEq] at read
      rw [← read]
      rfl
  | cons key keys induction =>
      rw [readContributions] at read
      obtain ⟨contribution, -, next⟩ := bind_eq_ok.mp read
      obtain ⟨rest, isRest, made⟩ := bind_eq_ok.mp next
      rw [← Except.ok.inj made, List.length_cons, induction isRest, List.length_cons]

end TradingControl.Cognitive
