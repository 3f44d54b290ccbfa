import TradingControl.Cognitive.Evolution
import TradingControl.Cognitive.Loop

/-!
# Proposals that their evidence supports

The learning engine, the proposal agent and the challenger each classify the same statistics.  A
proposal moves a weight the way its observation points, and the challenger reads the statistics the
same way.
-/

namespace TradingControl.Cognitive

open Python

/-! ## Scorecards -/

namespace ProposalScorecard

/-- The scorecard after some verdicts. -/
def ofRecords (records : List (String × Bool)) : ProposalScorecard :=
  records.foldl (fun scorecard verdict => record scorecard verdict.1 verdict.2) []

/-- No more successes than attempts. -/
def Counted (scorecard : ProposalScorecard) : Prop :=
  ∀ proposalType stat, scorecard.lookup proposalType = some stat → stat.successes ≤ stat.attempts

theorem Counted.record {scorecard : ProposalScorecard} (counted : Counted scorecard)
    (proposalType : String) (success : Bool) : Counted (record scorecard proposalType success) := by
  have before : ((scorecard.lookup proposalType).getD {}).successes ≤
      ((scorecard.lookup proposalType).getD {}).attempts := by
    cases found : scorecard.lookup proposalType with
    | none => exact le_rfl
    | some stat => exact counted proposalType stat found
  intro other stat found
  rw [ProposalScorecard.record, Dict.lookup_set] at found
  split at found
  case isTrue =>
    rw [← Option.some.inj found]
    cases success with
    | true => exact Nat.succ_le_succ before
    | false => exact before.trans (Nat.le_succ _)
  case isFalse => exact counted other stat found

theorem counted_ofRecords (records : List (String × Bool)) : Counted (ofRecords records) := by
  suffices all : ∀ scorecard, Counted scorecard → Counted (records.foldl
      (fun scorecard verdict => ProposalScorecard.record scorecard verdict.1 verdict.2)
      scorecard) from
    all [] (by intro proposalType stat found; simp at found)
  induction records with
  | nil => exact fun _ counted => counted
  | cons verdict records induction =>
      exact fun scorecard counted => induction _ (counted.record verdict.1 verdict.2)

theorem Counted.successRate_unit {scorecard : ProposalScorecard} (counted : Counted scorecard)
    (proposalType : String) :
    0 ≤ scorecard.successRate proposalType ∧ scorecard.successRate proposalType ≤ 1 := by
  rw [successRate]
  split
  · norm_num
  case h_2 stat found =>
    split
    case isTrue => norm_num
    case isFalse attempted =>
      have positive : (0 : ℚ) < stat.attempts := by exact_mod_cast Nat.pos_of_ne_zero attempted
      have fewer : (stat.successes : ℚ) ≤ stat.attempts := by
        exact_mod_cast counted proposalType stat found
      exact ⟨roundHalfEven_nonneg (div_nonneg (Nat.cast_nonneg _) positive.le),
        roundHalfEven_le_one ((div_le_one positive).mpr fewer)⟩

end ProposalScorecard

namespace ProposalAgent

/-- The worse the record, the more confidence is asked for. -/
theorem requiredConfidence_antitone (agent : ProposalAgent) :
    Antitone agent.requiredConfidence := by
  intro low high order
  rw [requiredConfidence, requiredConfidence]
  gcongr

end ProposalAgent

/-! ## Moved weights -/

/-- A weight after a step, as a proposal states it. -/
def movedWeight (old change : ℚ) : ℚ := roundHalfEven 4 (clampWeight (old + change))

section Moved

variable {old change : ℚ}

theorem clampWeight_unit (x : ℚ) : 0 ≤ clampWeight x ∧ clampWeight x ≤ 1 :=
  ⟨le_max_left _ _, max_le zero_le_one (min_le_left _ _)⟩

theorem movedWeight_unit (old change : ℚ) :
    weightBounds.low ≤ movedWeight old change ∧ movedWeight old change ≤ weightBounds.high :=
  ⟨roundHalfEven_nonneg (clampWeight_unit _).1, roundHalfEven_le_one (clampWeight_unit _).2⟩

/-- Clamping takes a weight no further than the step. -/
theorem abs_clampWeight_sub_le (low : 0 ≤ old) (high : old ≤ 1) (change : ℚ) :
    |clampWeight (old + change) - old| ≤ |change| := by
  have below := neg_abs_le change
  have above := le_abs_self change
  have size := abs_nonneg change
  rw [abs_le, clampWeight]
  change _ ≤ max 0 (min 1 _) - old ∧ max 0 (min 1 _) - old ≤ _
  constructor
  · have kept : old - |change| ≤ min 1 (old + change) := le_min (by linarith) (by linarith)
    have reached := kept.trans (le_max_right 0 _)
    linarith
  · have kept : max 0 (min 1 (old + change)) ≤ old + |change| :=
      max_le (by linarith) ((min_le_right _ _).trans (by linarith))
    linarith

theorem abs_movedWeight_sub_le (low : 0 ≤ old) (high : old ≤ 1) (change : ℚ) :
    |movedWeight old change - old| ≤ |change| + 1 / 2 / 10 ^ 4 := by
  have rounded := abs_roundHalfEven_sub_le 4 (clampWeight (old + change))
  have clamped := abs_clampWeight_sub_le low high change
  have parts := abs_sub_le (movedWeight old change) (clampWeight (old + change)) old
  rw [movedWeight] at parts ⊢
  linarith

/-- A step up that is larger than the rounding moves a weight up, or not at all at the bound. -/
theorem lt_movedWeight (high : old ≤ 1) (large : 1 / 10 ^ 4 ≤ change) (low : 0 ≤ old)
    (moved : movedWeight old change ≠ old) : old < movedWeight old change := by
  refine lt_of_le_of_ne ?_ moved.symm
  rw [movedWeight, clampWeight]
  change old ≤ roundHalfEven 4 (max 0 (min 1 (old + change)))
  rcases le_total (old + change) 1 with inside | outside
  · rw [min_eq_right inside, max_eq_right (by linarith)]
    have rounded := le_roundHalfEven 4 (old + change)
    norm_num at rounded large
    linarith
  · rw [min_eq_left outside, max_eq_right zero_le_one, roundHalfEven_one]
    exact high

/-- A step down that is larger than the rounding moves a weight down, or not at all at the bound. -/
theorem movedWeight_lt (low : 0 ≤ old) (large : 1 / 10 ^ 4 ≤ change) (high : old ≤ 1)
    (moved : movedWeight old (-change) ≠ old) : movedWeight old (-change) < old := by
  refine lt_of_le_of_ne ?_ moved
  rw [movedWeight, clampWeight]
  change roundHalfEven 4 (max 0 (min 1 (old + -change))) ≤ old
  rcases le_total (old + -change) 0 with outside | inside
  · rw [min_eq_right (by linarith), max_eq_left outside, roundHalfEven_zero]
    exact low
  · rw [min_eq_right (by norm_num at large; linarith), max_eq_right inside]
    have rounded := roundHalfEven_le 4 (old + -change)
    norm_num at rounded large
    linarith

end Moved

/-! ## Observations -/

theorem stats_of_mem_observe {runtime : Runtime} {engine : LearningEngine}
    {metadata : Dict String SignalStats} {observation : Observation}
    (observed : observation ∈ engine.observe runtime metadata) :
    ∃ stats, (observation.signal, stats) ∈ metadata ∧
      ((observation.direction = "outperforming" ∧ engine.outperformRate ≤ stats.correctRate ∧
          0 ≤ stats.totalPnlAttribution) ∨
        (observation.direction = "underperforming" ∧
          (stats.correctRate ≤ engine.underperformRate ∨ stats.totalPnlAttribution < 0))) := by
  rw [LearningEngine.observe, List.mem_filterMap] at observed
  obtain ⟨⟨signal, stats⟩, member, made⟩ := observed
  dsimp only at made
  rw [LearningEngine.observeSignal] at made
  split at made
  · simp at made
  · split at made
    case isTrue good =>
      obtain rfl := Option.some.inj made
      exact ⟨stats, member, .inl ⟨rfl, good⟩⟩
    case isFalse =>
      split at made
      case isTrue bad =>
        obtain rfl := Option.some.inj made
        exact ⟨stats, member, .inr ⟨rfl, bad⟩⟩
      case isFalse => simp at made

namespace ProposalAgent

theorem mem_of_strongest {observations : List Observation} {best : Observation}
    (found : strongest observations = some best) : best ∈ observations := by
  cases observations with
  | nil => simp [strongest] at found
  | cons first rest =>
      rw [strongest, Option.some.injEq] at found
      subst found
      induction rest generalizing first with
      | nil => exact .head _
      | cons second rest induction =>
          rw [List.foldl_cons]
          split
          · exact List.mem_cons_of_mem _ (induction second)
          · rcases List.mem_cons.mp (induction first) with same | later
            · rw [same]
              exact .head _
            · exact List.mem_cons_of_mem _ (List.mem_cons_of_mem _ later)

/-- The change that an agent makes to a weight. -/
def change (agent : ProposalAgent) (rate : ℚ) (direction : String) : ℚ :=
  if direction = "outperforming" then agent.step * (5 / 10 + 5 / 10 * rate)
  else -(agent.step * (5 / 10 + 5 / 10 * rate))

theorem proposed {runtime : Runtime} {agent : ProposalAgent} {observations : List Observation}
    {config : CognitiveConfig} {scorecard : ProposalScorecard} {proposal : Proposal}
    (made : agent.propose runtime observations config scorecard = .ok (some proposal)) :
    ∃ best ∈ observations, best.signal ∈ weightKeys ∧
      agent.requiredConfidence (scorecard.successRate "weight_change") ≤ best.confidence ∧
      ∃ weight, config.weights.lookup best.signal = some weight ∧
        ∃ new, new = movedWeight (roundHalfEven 6 weight)
            (agent.change (scorecard.successRate "weight_change") best.direction) ∧
          new ≠ roundHalfEven 6 weight ∧ proposal.target = "weights." ++ best.signal ∧
          proposal.oldValue = .float (roundHalfEven 6 weight) ∧ proposal.newValue = .float new := by
  rw [propose] at made
  split at made
  · simp at made
  case h_2 best found =>
    have candidate := mem_of_strongest found
    rw [List.mem_filter, decide_eq_true_eq] at candidate
    dsimp only at made
    split at made
    · simp at made
    case isFalse confident =>
      split at made
      · simp at made
      case h_2 weight isWeight =>
        set rate := scorecard.successRate "weight_change"
        set old := roundHalfEven 6 weight
        have isMoved : movedWeight old (agent.change rate best.direction) =
            roundHalfEven 4 (clampWeight (old + if best.direction = "outperforming" then
              agent.step * (5 / 10 + 5 / 10 * rate)
              else -(agent.step * (5 / 10 + 5 / 10 * rate)))) := rfl
        simp only [← isMoved] at made
        by_cases still : movedWeight old (agent.change rate best.direction) = old
        · rw [if_pos still] at made
          simp at made
        · rw [if_neg still] at made
          have isProposal := Option.some.inj (Except.ok.inj made)
          refine ⟨best, candidate.1, candidate.2, not_lt.mp confident, weight, isWeight, _, rfl,
            still, ?_⟩
          rw [← isProposal]
          exact ⟨rfl, rfl, rfl⟩

end ProposalAgent

/-! ## Support -/

/-- The challenger's reading of the statistics of a signal. -/
def supportedBy (metadata : Dict String SignalStats) (signal : String) (direction : ℤ) : Bool :=
  let stats := (metadata.lookup signal).getD {}
  let good := decide (stats.totalPnlAttribution ≥ 0) && decide (stats.correctRate ≥ 5 / 10)
  if direction > 0 then good else !good

theorem attributionSupports_eq (loop : Loop) (signal : String) (direction : ℤ) :
    loop.attributionSupports signal direction =
      supportedBy loop.importance.metadata signal direction := rfl

/-- A proposal with the observation it comes from. -/
structure Supported (runtime : Runtime) (metadata : Dict String SignalStats) (rate : ℚ)
    (observation : Observation) (old new : ℚ) (proposal : Proposal) : Prop where
  observed : observation ∈ ({} : LearningEngine).observe runtime metadata
  confident : ({} : ProposalAgent).requiredConfidence rate ≤ observation.confidence
  target : proposal.target = "weights." ++ observation.signal
  oldValue : proposal.oldValue = .float old
  newValue : proposal.newValue = .float new
  low : weightBounds.low ≤ new
  high : new ≤ weightBounds.high
  step : |new - old| ≤ ({} : ProposalAgent).step + 1 / 2 / 10 ^ 4
  direction : (observation.direction = "outperforming" ∧ old < new) ∨
    (observation.direction = "underperforming" ∧ new < old)
  supported : supportedBy metadata (lastSegment proposal.target)
    (differenceSign proposal.newValue proposal.oldValue) = true

theorem lastSegment_weight {signal : String} (scored : signal ∈ weightKeys) :
    lastSegment ("weights." ++ signal) = signal := by
  simp only [weightKeys, List.mem_cons, List.not_mem_nil, or_false] at scored
  rcases scored with rfl | rfl | rfl <;> decide +kernel

theorem weight_of_valid {runtime : Runtime} {config : CognitiveConfig}
    (valid : validateConfigDict runtime (.dict config.toDict) = .ok []) {signal : String}
    (scored : signal ∈ weightKeys) :
    ∃ weight, config.weights.lookup signal = some weight ∧ 0 ≤ weight ∧ weight ≤ 1 := by
  obtain ⟨values, describes⟩ := (validateConfigDict_iff runtime _).mp valid
  have each : ∀ field, ∃ weight, config.valueOf field = some weight ∧
      field.bounds.low ≤ weight ∧ weight ≤ field.bounds.high := by
    intro field
    obtain ⟨value, found, -, number⟩ := describes.entries field
    rw [entryOf_toDict] at found
    obtain ⟨weight, isWeight, rfl⟩ := Option.map_eq_some_iff.mp found
    have same : weight = values field := Except.ok.inj number
    rw [same] at isWeight
    exact ⟨values field, isWeight, describes.low field, describes.high field⟩
  simp only [weightKeys, List.mem_cons, List.not_mem_nil, or_false] at scored
  rcases scored with rfl | rfl | rfl
  · exact each .newsWeight
  · exact each .techWeight
  · exact each .macroWeight

/-- A change is larger than the rounding, and no larger than the step of the agent. -/
theorem change_bounds {rate : ℚ} (low : 0 ≤ rate) (high : rate ≤ 1) :
    1 / 10 ^ 4 ≤ ({} : ProposalAgent).step * (5 / 10 + 5 / 10 * rate) ∧
      ({} : ProposalAgent).step * (5 / 10 + 5 / 10 * rate) ≤ ({} : ProposalAgent).step := by
  norm_num
  constructor <;> linarith

theorem moved_as_observed {old rate : ℚ} (low : 0 ≤ old) (high : old ≤ 1) (rateLow : 0 ≤ rate)
    (rateHigh : rate ≤ 1) {direction : String}
    (moved : movedWeight old (({} : ProposalAgent).change rate direction) ≠ old) :
    |movedWeight old (({} : ProposalAgent).change rate direction) - old| ≤
        ({} : ProposalAgent).step + 1 / 2 / 10 ^ 4 ∧
      (direction = "outperforming" →
        old < movedWeight old (({} : ProposalAgent).change rate direction)) ∧
      (direction ≠ "outperforming" →
        movedWeight old (({} : ProposalAgent).change rate direction) < old) := by
  obtain ⟨large, small⟩ := change_bounds rateLow rateHigh
  have size : |({} : ProposalAgent).change rate direction| =
      ({} : ProposalAgent).step * (5 / 10 + 5 / 10 * rate) := by
    rw [ProposalAgent.change]
    split
    · exact abs_of_nonneg (le_trans (by norm_num) large)
    · rw [abs_neg]
      exact abs_of_nonneg (le_trans (by norm_num) large)
  have near := abs_movedWeight_sub_le low high (({} : ProposalAgent).change rate direction)
  rw [size] at near
  refine ⟨near.trans (by linarith), fun up => ?_, fun down => ?_⟩
  · rw [ProposalAgent.change, if_pos up] at moved ⊢
    exact lt_movedWeight high large low moved
  · rw [ProposalAgent.change, if_neg down] at moved ⊢
    exact movedWeight_lt low large high moved

/-- The challenger reads the statistics of an observation as it points. -/
theorem supportedBy_of_observed {metadata : Dict String SignalStats} {signal : String}
    {stats : SignalStats} (found : metadata.lookup signal = some stats) {old new : ℚ}
    (points : (old < new ∧ 60 / 100 ≤ stats.correctRate ∧ 0 ≤ stats.totalPnlAttribution) ∨
      (new < old ∧ (stats.correctRate ≤ 40 / 100 ∨ stats.totalPnlAttribution < 0))) :
    supportedBy metadata signal (sign (new - old)) = true := by
  rw [supportedBy, found, Option.getD_some]
  rcases points with ⟨up, rate, profit⟩ | ⟨down, bad⟩
  · have ahead : sign (new - old) = 1 := if_pos (sub_pos.mpr up)
    have right : stats.correctRate ≥ 5 / 10 := le_trans (by norm_num) rate
    simp [ahead, profit, right]
  · have behind : sign (new - old) = -1 := by
      rw [sign, if_neg (by linarith), if_pos (sub_neg.mpr down)]
    rcases bad with rate | loss
    · have wrong : ¬stats.correctRate ≥ 5 / 10 := by
        rw [ge_iff_le, not_le]
        exact lt_of_le_of_lt rate (by norm_num)
      simp [behind, wrong]
    · simp [behind, loss.not_ge]

theorem supported_of_proposed {runtime : Runtime} {metadata : Dict String SignalStats}
    (distinct : (Dict.keys metadata).Nodup) {config : CognitiveConfig}
    (valid : validateConfigDict runtime (.dict config.toDict) = .ok [])
    {scorecard : ProposalScorecard} (counted : scorecard.Counted) {proposal : Proposal}
    (made : ({} : ProposalAgent).propose runtime (({} : LearningEngine).observe runtime metadata)
      config scorecard = .ok (some proposal)) :
    ∃ observation old new, Supported runtime metadata (scorecard.successRate "weight_change")
      observation old new proposal := by
  obtain ⟨best, observed, scored, confident, weight, isWeight, new, isNew, moved, target, isOld,
    isValue⟩ := ProposalAgent.proposed made
  obtain ⟨weight', isWeight', weightLow, weightHigh⟩ := weight_of_valid valid scored
  obtain rfl := Option.some.inj (isWeight.symm.trans isWeight')
  obtain ⟨rateLow, rateHigh⟩ := counted.successRate_unit "weight_change"
  have bounds := movedWeight_unit (roundHalfEven 6 weight)
    (({} : ProposalAgent).change (scorecard.successRate "weight_change") best.direction)
  rw [← isNew] at bounds
  rw [isNew] at moved
  obtain ⟨near, up, down⟩ := moved_as_observed (roundHalfEven_nonneg weightLow)
    (roundHalfEven_le_one weightHigh) rateLow rateHigh moved
  rw [← isNew] at near up down
  obtain ⟨stats, member, points⟩ := stats_of_mem_observe observed
  have down' : best.direction = "underperforming" → new < roundHalfEven 6 weight :=
    fun under => down (by rw [under]; decide)
  refine ⟨best, roundHalfEven 6 weight, new, observed, confident, target, isOld, isValue, bounds.1,
    bounds.2, near, ?_, ?_⟩
  · exact points.imp (fun good => ⟨good.1, up good.1⟩) fun bad => ⟨bad.1, down' bad.1⟩
  · rw [target, isOld, isValue, lastSegment_weight scored]
    refine supportedBy_of_observed (Dict.lookup_of_mem distinct member) ?_
    exact points.imp (fun good => ⟨up good.1, good.2⟩) fun bad => ⟨down' bad.1, bad.2⟩

/-! ## Cycles -/

/-- The challenger that judged a proposal read the statistics of a loop. -/
def JudgedOn (runtime : Runtime) (importance : ImportanceTracker) (proposal : Proposal)
    (judgement : Judgement) : Prop :=
  ∃ tested : Loop, tested.importance = importance ∧
    tested.challenge runtime proposal judgement.backtests = .ok judgement.verdict

section Judged

variable {runtime : Runtime} {call : EvolveCall} {proposal judgedProposal : Proposal}
  {candidate : CognitiveConfig} {judgement : Judgement}

theorem judgedOn_of_judge {loop : Loop}
    (judged : (loop.judge runtime call proposal candidate).1 =
      .ok (.judged judgedProposal judgement)) :
    judgedProposal = proposal ∧ JudgedOn runtime loop.importance proposal judgement := by
  rw [Loop.judge] at judged
  rcases tests : Loop.runBacktests runtime call loop.config candidate with error | backtests
  · rw [tests] at judged
    simp at judged
  · rw [tests] at judged
    dsimp only at judged
    rcases ruled : (loop.emit (Loop.backtestMessage proposal backtests)).challenge runtime proposal
      backtests with error | verdict
    · rw [ruled] at judged
      simp at judged
    · rw [ruled] at judged
      dsimp only [Loop.settle] at judged
      split at judged <;>
        · obtain ⟨rfl, rfl⟩ := EvolveResult.judged.inj (Except.ok.inj judged)
          exact ⟨rfl, _, rfl, ruled⟩

theorem judgedOn_of_pursue {loop : Loop}
    (judged : (loop.pursue runtime call proposal).1 = .ok (.judged judgedProposal judgement)) :
    judgedProposal = proposal ∧ JudgedOn runtime loop.importance proposal judgement := by
  rw [Loop.pursue] at judged
  rcases applied : applyProposalToConfig runtime loop.config proposal with error | ⟨_ | candidate⟩
  · rw [applied] at judged
    simp at judged
  · rw [applied] at judged
    simp at judged
  · rw [applied] at judged
    dsimp only at judged
    have on := judgedOn_of_judge judged
    exact on

theorem judgedOn_of_consider {loop : Loop}
    (judged : (loop.consider runtime call proposal).1 = .ok (.judged judgedProposal judgement)) :
    judgedProposal = proposal ∧ JudgedOn runtime loop.importance proposal judgement := by
  rw [Loop.consider] at judged
  dsimp only at judged
  split at judged
  · simp at judged
  · split at judged
    · have on := judgedOn_of_pursue judged
      exact on
    · simp at judged

/-- A judged proposal was made from the observations of the cycle, and the challenger that judged it
read the same statistics. -/
theorem judged_of_evolve {loop : Loop}
    (judged : (loop.evolve runtime call).1 = .ok (some (.judged proposal judgement))) :
    call.propose (loop.learning.observe runtime loop.importance.metadata) loop.config
        loop.scorecard = .ok (some proposal) ∧
      JudgedOn runtime loop.importance proposal judgement := by
  rw [Loop.evolve] at judged
  dsimp only at judged
  rcases made : call.propose (loop.learn runtime).1 (loop.learn runtime).2.config
    (loop.learn runtime).2.scorecard with error | ⟨_ | suggested⟩
  · rw [made] at judged
    simp at judged
  · rw [made] at judged
    simp at judged
  · rw [made] at judged
    dsimp only at judged
    rcases considered : ((loop.learn runtime).2.consider runtime call suggested).1 with
      error | result
    · rw [considered] at judged
      simp [Except.map] at judged
    · rw [considered] at judged
      obtain rfl := Option.some.inj (Except.ok.inj judged)
      obtain ⟨rfl, on⟩ := judgedOn_of_consider considered
      exact ⟨made, on⟩

end Judged

/-- A supported direction passes the check of the challenger. -/
theorem consistent_of_supported {runtime : Runtime} {metadata : Dict String SignalStats} {rate : ℚ}
    {observation : Observation} {old new : ℚ} {proposal : Proposal} {judgement : Judgement}
    (supported : Supported runtime metadata rate observation old new proposal)
    {importance : ImportanceTracker} (same : importance.metadata = metadata)
    (judged : JudgedOn runtime importance proposal judgement) :
    ("historically_consistent", true) ∈ judgement.verdict.checks := by
  obtain ⟨tested, rfl, challenged⟩ := judged
  rw [Loop.challenge, supported.newValue, supported.oldValue] at challenged
  have isVerdict := Except.ok.inj challenged
  have backed := supported.supported
  rw [supported.newValue, supported.oldValue, ← same, ← attributionSupports_eq] at backed
  rw [← isVerdict, review, backed]
  simp

/-- A proposal made from observations of some metadata stays within the bounds, moves a weight by no
more than a step the way its observation points, asks for more confidence the worse the record, and
is never judged to contradict its evidence. -/
theorem evidence_agrees (runtime : Runtime) (metadata : Dict String SignalStats)
    (distinct : (Dict.keys metadata).Nodup) (config : CognitiveConfig)
    (valid : validateConfigDict runtime (.dict config.toDict) = .ok [])
    (records : List (String × Bool)) :
    (∀ proposal, ({} : ProposalAgent).propose runtime
        (({} : LearningEngine).observe runtime metadata) config (.ofRecords records) =
          .ok (some proposal) →
      ∃ observation old new, Supported runtime metadata
        ((ProposalScorecard.ofRecords records).successRate "weight_change") observation old new
        proposal) ∧
    Antitone ({} : ProposalAgent).requiredConfidence ∧
    ∀ (loop : Loop) (call : EvolveCall) (proposal : Proposal) (judgement : Judgement),
      loop.learning = {} → loop.importance.metadata = metadata → loop.config = config →
      loop.scorecard = .ofRecords records → call.propose = ({} : ProposalAgent).propose runtime →
      (loop.evolve runtime call).1 = .ok (some (.judged proposal judgement)) →
      ("historically_consistent", true) ∈ judgement.verdict.checks := by
  have counted := ProposalScorecard.counted_ofRecords records
  refine ⟨fun proposal made => supported_of_proposed distinct valid counted made,
    ProposalAgent.requiredConfidence_antitone _, ?_⟩
  intro loop call proposal judgement learning importance isConfig scorecard propose judged
  obtain ⟨made, on⟩ := judged_of_evolve judged
  rw [propose, learning, importance, isConfig, scorecard] at made
  obtain ⟨observation, old, new, supported⟩ := supported_of_proposed distinct valid counted made
  exact consistent_of_supported supported importance on

/-- The news signal has been right on 81 of 90 profitable trades. -/
theorem evidence_agrees_news : ∃ proposal,
    ({} : ProposalAgent).propose Reference.runtime (({} : LearningEngine).observe Reference.runtime
      [("news", ⟨90, 1 / 10, 5, 9 / 10⟩)]) defaultConfig (.ofRecords []) = .ok (some proposal) ∧
    ∃ observation old new, Supported Reference.runtime [("news", ⟨90, 1 / 10, 5, 9 / 10⟩)]
      ((ProposalScorecard.ofRecords []).successRate "weight_change") observation old new
      proposal := by
  have agrees := (evidence_agrees Reference.runtime [("news", ⟨90, 1 / 10, 5, 9 / 10⟩)] (by decide)
    defaultConfig (by decide +kernel) []).1
  have made : returnsSome (({} : ProposalAgent).propose Reference.runtime
      (({} : LearningEngine).observe Reference.runtime [("news", ⟨90, 1 / 10, 5, 9 / 10⟩)])
      defaultConfig (.ofRecords [])) = true := by decide +kernel
  obtain ⟨proposal, isProposal⟩ := exists_of_returnsSome made
  exact ⟨proposal, isProposal, agrees proposal isProposal⟩

end TradingControl.Cognitive
