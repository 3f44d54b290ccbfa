import Mathlib.Algebra.Order.Group.Unbundled.Abs
import Mathlib.Data.List.MinMax
import Mathlib.Tactic.Linarith
import TradingControl.Python.Dict

/-!
# Challenger verdict

The strategies of a comparison are judged by one of them: the candidate of the highest return.  It
has to be eligible itself, so one with too few trades stands in the way of the eligible ones behind
it.
-/

namespace TradingControl.Backtest

open Python

/-! ## Statistics -/

structure StrategyStats where
  name : String
  meanReturnPct : ℚ
  meanTrades : ℚ
  meanSharpe : ℚ
  meanWinRate : ℚ
  meanSignals : ℚ := 0
deriving DecidableEq

inductive VerdictDecision where
  | promote
  | reject
  | insufficientData
deriving DecidableEq, Repr

structure ChallengerVerdict where
  candidate : String
  baseline : String
  isDifferent : Bool
  beatsBaseline : Bool
  decision : VerdictDecision
  reason : String
  candidateStats : StrategyStats
  baselineStats : StrategyStats

/-- How the reasons write their numbers. -/
structure VerdictFormat where
  /-- `f"{x:.0f}"`. -/
  whole : ℚ → String
  /-- `f"{x:.1f}"`. -/
  tenths : ℚ → String
  /-- `f"{x:+.2f}"`. -/
  signedHundredths : ℚ → String

/-- `BASELINE_STRATEGY`. -/
def baselineStrategy : String := "baseline_momentum"

/-- `DEFAULT_PROMOTE_MARGIN_PCT`. -/
def defaultPromoteMarginPct : ℚ := 1

/-- `MIN_TRADES_FOR_VERDICT`. -/
def minTradesForVerdict : ℚ := 30

/-! ## Verdict -/

/-- `by_name`. -/
def byName (stats : List StrategyStats) : Dict String StrategyStats :=
  Dict.update [] (stats.map fun entry => (entry.name, entry))

/-- `candidates`. -/
def candidates (baseline : String) (stats : List StrategyStats) : List StrategyStats :=
  stats.filter (·.name ≠ baseline)

/-- `is_different`. -/
def isDifferent (best base : StrategyStats) : Bool :=
  best.meanTrades ≠ base.meanTrades ∨ 1 / 10 ^ 9 < |best.meanReturnPct - base.meanReturnPct|

/-- `beats_baseline`. -/
def beatsBaseline (marginPct : ℚ) (best base : StrategyStats) : Bool :=
  base.meanReturnPct + marginPct < best.meanReturnPct

/-- The decision and its reason. -/
def judge (format : VerdictFormat) (baseline : String) (marginPct minTrades : ℚ)
    (best base : StrategyStats) : VerdictDecision × String :=
  let returns := "(" ++ format.signedHundredths best.meanReturnPct ++ "% vs " ++
    format.signedHundredths base.meanReturnPct ++ "%)."
  if base.meanTrades < minTrades ∨ best.meanTrades < minTrades then
    (.insufficientData, "Not enough trades to judge " ++ best.name ++ " vs " ++ baseline ++ " (" ++
      baseline ++ "=" ++ format.whole base.meanTrades ++ ", " ++ best.name ++ "=" ++
      format.whole best.meanTrades ++ "; need >= " ++ format.whole minTrades ++
      " each). A verdict on this few trades is noise.")
  else if isDifferent best base ∧ beatsBaseline marginPct best base then
    (.promote, best.name ++ " is different from " ++ baseline ++ " and beats it " ++ returns)
  else if ¬isDifferent best base then
    (.reject, best.name ++ " behaves identically to " ++ baseline ++
      " — nothing real to promote.")
  else
    (.reject, best.name ++ " differs but does not beat " ++ baseline ++ " by " ++
      format.tenths marginPct ++ " pts " ++ returns)

/-- `evaluate_from_stats`. -/
def evaluateFromStats (format : VerdictFormat) (stats : List StrategyStats)
    (baseline : String) (marginPct minTrades : ℚ) : Option ChallengerVerdict := do
  let base ← (byName stats).lookup baseline
  let best ← (candidates baseline stats).argmax (·.meanReturnPct)
  let (decision, reason) := judge format baseline marginPct minTrades best base
  return {
    candidate := best.name
    baseline
    isDifferent := isDifferent best base
    beatsBaseline := beatsBaseline marginPct best base
    decision
    reason
    candidateStats := best
    baselineStats := base }

variable {format : VerdictFormat} {stats : List StrategyStats} {baseline : String}
  {marginPct minTrades : ℚ} {base best : StrategyStats}

theorem lookup_byName (distinct : (stats.map StrategyStats.name).Nodup) :
    (byName stats).lookup baseline = some base ↔ base ∈ stats ∧ base.name = baseline := by
  have keys : Dict.keys (stats.map fun entry => (entry.name, entry)) =
      stats.map StrategyStats.name := by
    simp [Dict.keys, Function.comp_def]
  rw [byName, Dict.lookup_update _ _ (keys ▸ distinct), List.lookup_nil, Option.or_none]
  constructor
  · intro found
    obtain ⟨entry, member, same⟩ := List.mem_map.mp (Dict.mem_of_lookup found)
    cases same
    exact ⟨member, rfl⟩
  · rintro ⟨member, rfl⟩
    exact Dict.lookup_of_mem (keys ▸ distinct) (List.mem_map.mpr ⟨base, member, rfl⟩)

theorem judge_promote_iff :
    (judge format baseline marginPct minTrades best base).1 = .promote ↔
      minTrades ≤ base.meanTrades ∧ minTrades ≤ best.meanTrades ∧ isDifferent best base = true ∧
        base.meanReturnPct + marginPct < best.meanReturnPct := by
  have beats : beatsBaseline marginPct best base = true ↔
      base.meanReturnPct + marginPct < best.meanReturnPct := decide_eq_true_iff
  rw [judge, ← beats]
  split_ifs with few promoted same
  · refine iff_of_false (by simp) fun eligible => ?_
    rcases few with few | few
    · exact eligible.1.not_gt few
    · exact eligible.2.1.not_gt few
  · obtain ⟨enough, enoughToo⟩ := not_or.mp few
    exact iff_of_true rfl ⟨not_lt.mp enough, not_lt.mp enoughToo, promoted⟩
  · exact iff_of_false (by simp) fun eligible => promoted eligible.2.2
  · exact iff_of_false (by simp) fun eligible => promoted eligible.2.2

/-! ## What is promised -/

section

variable (format stats baseline marginPct minTrades)

def Promotes : Prop :=
  ∃ verdict, evaluateFromStats format stats baseline marginPct minTrades = some verdict ∧
    verdict.decision = .promote

/-- Some candidate and the baseline have enough trades, and the candidate is better by more than the
margin. -/
def HasWinner : Prop :=
  ∃ base ∈ stats, base.name = baseline ∧ minTrades ≤ base.meanTrades ∧
    ∃ candidate ∈ stats, candidate.name ≠ baseline ∧ minTrades ≤ candidate.meanTrades ∧
      base.meanReturnPct + marginPct < candidate.meanReturnPct

/-- No candidate has a higher return, and none before it has the same. -/
def Leads (best : StrategyStats) : Prop :=
  best ∈ candidates baseline stats ∧
    (∀ other ∈ candidates baseline stats, other.meanReturnPct ≤ best.meanReturnPct) ∧
      ∀ other ∈ candidates baseline stats, best.meanReturnPct ≤ other.meanReturnPct →
        (candidates baseline stats).idxOf best ≤ (candidates baseline stats).idxOf other

/-- If there is a winner, the first candidate of the highest return has enough trades, and other
trades than the baseline or another return. -/
def LeaderEligible : Prop :=
  HasWinner stats baseline marginPct minTrades →
    ∀ best, Leads stats baseline best → minTrades ≤ best.meanTrades ∧
      ∀ base ∈ stats, base.name = baseline → isDifferent best base = true

end

theorem leads_iff : Leads stats baseline best ↔
    (candidates baseline stats).argmax (·.meanReturnPct) = some best :=
  List.argmax_eq_some_iff.symm

theorem promotes_iff (distinct : (stats.map StrategyStats.name).Nodup) :
    Promotes format stats baseline marginPct minTrades ↔
      ∃ base ∈ stats, base.name = baseline ∧ ∃ best, Leads stats baseline best ∧
        minTrades ≤ base.meanTrades ∧ minTrades ≤ best.meanTrades ∧
          isDifferent best base = true ∧ base.meanReturnPct + marginPct < best.meanReturnPct := by
  constructor
  · rintro ⟨verdict, evaluated, promoted⟩
    obtain ⟨base, found, evaluated⟩ := Option.bind_eq_some_iff.mp evaluated
    obtain ⟨best, leads, evaluated⟩ := Option.bind_eq_some_iff.mp evaluated
    obtain ⟨member, named⟩ := (lookup_byName distinct).mp found
    cases evaluated
    exact ⟨base, member, named, best, leads_iff.mpr leads, judge_promote_iff.mp promoted⟩
  · rintro ⟨base, member, named, best, leads, eligible⟩
    have found := (lookup_byName distinct).mpr ⟨member, named⟩
    refine ⟨_, Option.bind_eq_some_iff.mpr ⟨base, found,
      Option.bind_eq_some_iff.mpr ⟨best, leads_iff.mp leads, rfl⟩⟩, ?_⟩
    exact judge_promote_iff.mpr eligible

theorem hasWinner_of_promotes (distinct : (stats.map StrategyStats.name).Nodup)
    (promotes : Promotes format stats baseline marginPct minTrades) :
    HasWinner stats baseline marginPct minTrades := by
  obtain ⟨base, member, named, best, leads, enough, enoughToo, -, beats⟩ :=
    (promotes_iff distinct).mp promotes
  obtain ⟨listed, other⟩ := List.mem_filter.mp leads.1
  exact ⟨base, member, named, enough, best, listed, of_decide_eq_true other, enoughToo, beats⟩

/-- The verdict promotes for a winner exactly where the leader is eligible itself. -/
theorem verdict_complete_iff (format : VerdictFormat)
    (distinct : (stats.map StrategyStats.name).Nodup) :
    (Promotes format stats baseline marginPct minTrades ↔
        HasWinner stats baseline marginPct minTrades) ↔
      LeaderEligible stats baseline marginPct minTrades := by
  constructor
  · intro complete winner best leads
    obtain ⟨base, member, named, leader, leadsToo, -, enough, different, -⟩ :=
      (promotes_iff distinct).mp (complete.mpr winner)
    obtain rfl : leader = best :=
      Option.some.inj ((leads_iff.mp leadsToo).symm.trans (leads_iff.mp leads))
    refine ⟨enough, fun other listed same => ?_⟩
    have once := (lookup_byName distinct).mpr ⟨member, named⟩
    have again := (lookup_byName distinct).mpr ⟨listed, same⟩
    rw [once] at again
    exact Option.some.inj again ▸ different
  · intro eligible
    refine ⟨hasWinner_of_promotes distinct, fun winner => (promotes_iff distinct).mpr ?_⟩
    obtain ⟨base, member, named, enough, candidate, listed, other, -, beats⟩ := id winner
    have isCandidate : candidate ∈ candidates baseline stats :=
      List.mem_filter.mpr ⟨listed, decide_eq_true other⟩
    cases highest : (candidates baseline stats).argmax (·.meanReturnPct) with
    | none =>
        rw [List.argmax_eq_none] at highest
        rw [highest] at isCandidate
        cases isCandidate
    | some best =>
        have leads := leads_iff.mpr highest
        obtain ⟨enoughToo, different⟩ := eligible winner best leads
        exact ⟨base, member, named, best, leads, enough, enoughToo, different base member named,
          beats.trans_le (leads.2.1 candidate isCandidate)⟩

/-- Reasons without numbers. -/
def plainFormat : VerdictFormat := ⟨fun _ => "", fun _ => "", fun _ => ""⟩

/-- The baseline and a candidate that is worth promoting. -/
def baseAndGood : List StrategyStats :=
  [⟨baselineStrategy, -20, 240, -3 / 10, 37 / 100, 240⟩,
    ⟨"strong_only", -5, 35, -1 / 10, 40 / 100, 35⟩]

theorem verdict_complete_good :
    (Promotes plainFormat baseAndGood baselineStrategy defaultPromoteMarginPct minTradesForVerdict ↔
        HasWinner baseAndGood baselineStrategy defaultPromoteMarginPct minTradesForVerdict) ↔
      LeaderEligible baseAndGood baselineStrategy defaultPromoteMarginPct minTradesForVerdict :=
  verdict_complete_iff plainFormat (by decide +kernel)

/-- A strategy that never trades leads with no return, and hides the candidate worth promoting. -/
theorem idle_hides_good :
    ¬∀ (stats : List StrategyStats) (baseline : String) (marginPct minTrades : ℚ),
      (stats.map StrategyStats.name).Nodup → baseline ∈ stats.map StrategyStats.name →
        0 ≤ marginPct → (Promotes plainFormat stats baseline marginPct minTrades ↔
          HasWinner stats baseline marginPct minTrades) := by
  intro complete
  have winner : HasWinner (baseAndGood ++ [⟨"idle", 0, 0, 0, 0, 0⟩]) baselineStrategy
      defaultPromoteMarginPct minTradesForVerdict := by
    refine ⟨_, List.mem_cons_self, rfl, by decide +kernel, _, List.mem_cons_of_mem _
      List.mem_cons_self, by decide +kernel, by decide +kernel, by decide +kernel⟩
  obtain ⟨verdict, evaluated, promoted⟩ := (complete _ baselineStrategy defaultPromoteMarginPct
    minTradesForVerdict (by decide +kernel) (by decide +kernel) (by decide +kernel)).mpr winner
  have few : (evaluateFromStats plainFormat (baseAndGood ++ [⟨"idle", 0, 0, 0, 0, 0⟩])
      baselineStrategy defaultPromoteMarginPct minTradesForVerdict).map (·.decision) =
        some .insufficientData := by
    decide +kernel
  rw [evaluated, Option.map_some, promoted] at few
  cases few

end TradingControl.Backtest
