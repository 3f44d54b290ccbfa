import TradingControl.Cognitive.SupportedProposals

/-!
# Mirrored trades

The mirror image of a trade takes the opposite side on the opposite contributions and makes the
same profit.  The tracker compares the sign of a contribution with that of the profit, so a bearish
signal that drove a profitable short counts as wrong.
-/

namespace TradingControl.Cognitive

open Python

/-! ## Trades -/

/-- A closed trade with the breakdown of its decision. -/
structure ClosedTrade where
  breakdown : Dict String ℚ
  outcome : TradeOutcome

def oppositeSide (side : String) : String := if side = "buy" then "sell" else "buy"

namespace ClosedTrade

/-- The same profit from the opposite contributions on the other side. -/
def mirror (trade : ClosedTrade) : ClosedTrade where
  breakdown := trade.breakdown.map fun item => (item.1, -item.2)
  outcome := { trade.outcome with side := oppositeSide trade.outcome.side }

/-- The contribution of a signal. -/
def contribution (trade : ClosedTrade) (key : String) : ℚ := (trade.breakdown.lookup key).getD 0

/-- The contributions of the scored signals. -/
def contributions (trade : ClosedTrade) : Dict String ℚ :=
  weightKeys.map fun key => (key, trade.contribution key)

/-- The attribution of the profit. -/
def attribution (trade : ClosedTrade) : Attribution :=
  attributeTo trade.contributions trade.outcome.realizedPnl

/-- The signal points the way the profit does. -/
def Agrees (key : String) (trade : ClosedTrade) : Prop :=
  sign (trade.contribution key) ≠ 0 ∧
    sign (trade.contribution key) = sign trade.outcome.realizedPnl

/-- The signal points against the profit. -/
def Opposes (key : String) (trade : ClosedTrade) : Prop :=
  sign (trade.contribution key) ≠ 0 ∧
    sign (trade.contribution key) = -sign trade.outcome.realizedPnl

instance (key : String) : DecidablePred (Agrees key) :=
  fun _ => inferInstanceAs (Decidable (_ ∧ _))

instance (key : String) : DecidablePred (Opposes key) :=
  fun _ => inferInstanceAs (Decidable (_ ∧ _))

end ClosedTrade

namespace ImportanceTracker

/-- The tracker after a trade, as `close_trade` folds it in. -/
def close (runtime : Runtime) (tracker : ImportanceTracker) (trade : ClosedTrade) :
    ImportanceTracker :=
  match attributePnl runtime (floatDict trade.breakdown) trade.outcome.realizedPnl with
  | .ok attribution => tracker.update attribution (sign trade.outcome.realizedPnl)
  | .error _ => tracker

def ofTrades (runtime : Runtime) (trades : List ClosedTrade) : ImportanceTracker :=
  trades.foldl (close runtime) fresh

end ImportanceTracker

/-! ## Symmetry -/

/-- Learning does not tell mirrored trades from the trades themselves. -/
structure LearnsSymmetrically (runtime : Runtime) (trades : List ClosedTrade) : Prop where
  metadata : (ImportanceTracker.ofTrades runtime (trades.map .mirror)).metadata =
    (ImportanceTracker.ofTrades runtime trades).metadata
  observations : ∀ engine : LearningEngine,
    engine.observe runtime (ImportanceTracker.ofTrades runtime (trades.map .mirror)).metadata =
      engine.observe runtime (ImportanceTracker.ofTrades runtime trades).metadata
  proposal : ∀ (engine : LearningEngine) (agent : ProposalAgent) config scorecard,
    agent.propose runtime (engine.observe runtime
        (ImportanceTracker.ofTrades runtime (trades.map .mirror)).metadata) config scorecard =
      agent.propose runtime (engine.observe runtime
        (ImportanceTracker.ofTrades runtime trades).metadata) config scorecard

/-- Each signal is as often with the profit as against it, to six decimals. -/
def Balanced (trades : List ClosedTrade) : Prop :=
  ∀ key ∈ weightKeys,
    roundHalfEven 6 ((trades.countP (ClosedTrade.Opposes key) : ℚ) / trades.length) =
      roundHalfEven 6 ((trades.countP (ClosedTrade.Agrees key) : ℚ) / trades.length)

/-! ## One signal -/

def accOf (key : String) (trades : List ClosedTrade) : SignalAcc where
  samples := trades.length
  absContribution := (trades.map fun trade => |trade.contribution key|).sum
  pnl := (trades.map fun trade => (trade.attribution.pnlAttribution.lookup key).getD 0).sum
  correct := trades.countP (ClosedTrade.Agrees key)

theorem lookup_map_keys {ν : Type} (value : String → ν) {keys : List String} {key : String}
    (member : key ∈ keys) : (keys.map fun key => (key, value key)).lookup key =
      some (value key) := by
  induction keys with
  | nil => simp at member
  | cons first rest induction =>
      by_cases same : key = first
      · subst same
        simp
      · have later := (List.mem_cons.mp member).resolve_left same
        simp [List.lookup_cons, beq_false_of_ne same, induction later]

theorem floatField_floatDict (runtime : Runtime) (breakdown : Dict String ℚ) (key : String) :
    floatField runtime (floatDict breakdown) key 0 = .ok ((breakdown.lookup key).getD 0) := by
  have found : (floatDict breakdown).lookup key = (breakdown.lookup key).map Value.float :=
    Dict.lookup_map_value Value.float key breakdown
  rw [floatField, found]
  cases breakdown.lookup key <;> rfl

theorem readContributions_floatDict (runtime : Runtime) (breakdown : Dict String ℚ)
    (keys : List String) : readContributions runtime (floatDict breakdown) keys =
      .ok (keys.map fun key => (key, (breakdown.lookup key).getD 0)) := by
  induction keys with
  | nil => rfl
  | cons key keys induction =>
      rw [readContributions, floatField_floatDict, induction]
      rfl

theorem close_eq (runtime : Runtime) (tracker : ImportanceTracker) (trade : ClosedTrade) :
    tracker.close runtime trade =
      tracker.update trade.attribution (sign trade.outcome.realizedPnl) := by
  rw [ImportanceTracker.close, attributePnl, readContributions_floatDict]
  rfl

/-- The tracker keeps the statistics of each signal apart. -/
theorem ofTrades_eq (runtime : Runtime) (trades : List ClosedTrade) :
    ImportanceTracker.ofTrades runtime trades =
      weightKeys.map fun key => (key, accOf key trades) := by
  induction trades using List.reverseRecOn with
  | nil => rfl
  | append_singleton trades trade induction =>
      rw [ImportanceTracker.ofTrades, List.foldl_append]
      change (ImportanceTracker.ofTrades runtime trades).close runtime trade = _
      rw [induction, close_eq, ImportanceTracker.update, List.map_map]
      refine List.map_congr_left fun key member => ?_
      have found : trade.attribution.contributions.lookup key = some (trade.contribution key) :=
        lookup_map_keys trade.contribution member
      simp only [Function.comp_apply, found, Option.getD_some, accOf, List.length_append,
        List.length_singleton, List.map_append, List.map_cons, List.map_nil, List.sum_append,
        List.sum_singleton, List.countP_append, List.countP_singleton]
      split
      case isTrue agrees =>
        have right : trade.Agrees key := agrees
        simp [right]
      case isFalse disagrees =>
        have wrong : ¬trade.Agrees key := disagrees
        simp [wrong]

/-! ## Mirrored statistics -/

theorem sign_neg (x : ℚ) : sign (-x) = -sign x := by
  rcases lt_trichotomy x 0 with negative | rfl | positive
  · simp [sign, negative, negative.le.not_gt]
  · rfl
  · simp [sign, positive, positive.le.not_gt]

theorem contribution_mirror (trade : ClosedTrade) (key : String) :
    trade.mirror.contribution key = -trade.contribution key := by
  have found := Dict.lookup_map_value (fun value : ℚ => -value) key trade.breakdown
  rw [ClosedTrade.contribution, ClosedTrade.contribution, ClosedTrade.mirror, found]
  cases trade.breakdown.lookup key <;> simp

/-- The profit is split by sizes. -/
theorem pnlAttribution_mirror (trade : ClosedTrade) :
    trade.mirror.attribution.pnlAttribution = trade.attribution.pnlAttribution := by
  have sizes : (trade.mirror.contributions.map fun item => (item.1, |item.2|)) =
      trade.contributions.map fun item => (item.1, |item.2|) := by
    simp [ClosedTrade.contributions, contribution_mirror, Function.comp_def]
  have bySizes : ∀ (contributions : Dict String ℚ) (realizedPnl : ℚ),
      (attributeTo contributions realizedPnl).pnlAttribution =
        (attributeTo (contributions.map fun item => (item.1, |item.2|))
          realizedPnl).pnlAttribution := by
    intro contributions realizedPnl
    simp [attributeTo, Function.comp_def]
  rw [ClosedTrade.attribution, ClosedTrade.attribution, bySizes, sizes,
    bySizes trade.contributions]
  rfl

theorem agrees_mirror (trade : ClosedTrade) (key : String) :
    trade.mirror.Agrees key ↔ trade.Opposes key := by
  rw [ClosedTrade.Agrees, ClosedTrade.Opposes, contribution_mirror, sign_neg, neg_ne_zero,
    neg_eq_iff_eq_neg]
  rfl

theorem accOf_mirror (key : String) (trades : List ClosedTrade) :
    accOf key (trades.map .mirror) =
      { accOf key trades with correct := trades.countP (ClosedTrade.Opposes key) } := by
  have counted : (trades.map ClosedTrade.mirror).countP (ClosedTrade.Agrees key) =
      trades.countP (ClosedTrade.Opposes key) := by
    rw [List.countP_map]
    exact List.countP_congr fun trade _ => by simp [agrees_mirror]
  simp only [accOf, counted, List.length_map, List.map_map, Function.comp_def, contribution_mirror,
    abs_neg, pnlAttribution_mirror]

/-- The statistics of a signal that learning reads. -/
def statsOf (acc : SignalAcc) : SignalStats where
  samples := acc.samples
  avgAbsContribution :=
    if acc.samples ≠ 0 then roundHalfEven 6 (acc.absContribution / acc.samples) else 0
  totalPnlAttribution := roundHalfEven 6 acc.pnl
  correctRate := if acc.samples ≠ 0 then roundHalfEven 6 (acc.correct / acc.samples) else 0

theorem metadata_ofTrades (runtime : Runtime) (trades : List ClosedTrade) :
    (ImportanceTracker.ofTrades runtime trades).metadata =
      weightKeys.map fun key => (key, statsOf (accOf key trades)) := by
  rw [ofTrades_eq, ImportanceTracker.metadata, List.map_map]
  rfl

/-- Only how often a signal was right can differ. -/
theorem statsOf_correct_iff (acc : SignalAcc) (correct : ℤ) :
    statsOf { acc with correct } = statsOf acc ↔
      roundHalfEven 6 (correct / acc.samples) = roundHalfEven 6 (acc.correct / acc.samples) := by
  simp only [statsOf, SignalStats.mk.injEq, true_and]
  by_cases sampled : acc.samples = 0
  · simp [sampled]
  · rw [if_pos sampled, if_pos sampled]

theorem metadata_mirrored_iff (runtime : Runtime) (trades : List ClosedTrade) :
    (ImportanceTracker.ofTrades runtime (trades.map .mirror)).metadata =
      (ImportanceTracker.ofTrades runtime trades).metadata ↔ Balanced trades := by
  rw [metadata_ofTrades, metadata_ofTrades, List.map_inj_left]
  refine forall₂_congr fun key _ => ?_
  rw [Prod.mk.injEq, accOf_mirror, statsOf_correct_iff]
  simp only [true_and]
  rw [accOf, Int.cast_natCast, Int.cast_natCast, Int.cast_natCast]

/-- Learning takes a history for its mirror image exactly where each signal is as often with the
profit as against it. -/
theorem learnsSymmetrically_iff (runtime : Runtime) (trades : List ClosedTrade) :
    LearnsSymmetrically runtime trades ↔ Balanced trades := by
  rw [← metadata_mirrored_iff runtime trades]
  constructor
  · exact LearnsSymmetrically.metadata
  · intro same
    exact ⟨same, fun engine => by rw [same], fun engine agent config scorecard => by rw [same]⟩

/-- A profitable long that a bullish news signal drove. -/
def bullishTrade : ClosedTrade where
  breakdown := [("news", 3 / 10), ("tech", 0), ("macro", 0)]
  outcome := ⟨5, 1, 0, 0, "buy", 100, 99, 101⟩

/-- The mirrored news signal is never right. -/
theorem not_learnsSymmetrically_bullish :
    ¬∀ trades, LearnsSymmetrically Reference.runtime trades := by
  intro all
  have same := (all [bullishTrade]).metadata
  rw [metadata_ofTrades, metadata_ofTrades, List.map_inj_left] at same
  have news := congrArg (fun item => item.2.correctRate) (same "news" (.head _))
  exact absurd news (by decide +kernel)

end TradingControl.Cognitive
