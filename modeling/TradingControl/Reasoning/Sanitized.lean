import TradingControl.Python.Reference
import TradingControl.Reasoning.ReasoningAgent

/-!
# What a model's reply becomes

The agent copies the action of a reply, scales its confidence and falls back on its size where the
Kelly fraction is not positive.  No step holds a reply to its contract, so a published decision is
in range exactly where the reply, as criticised and judged, already was.
-/

namespace TradingControl.Reasoning

open Python

/-- Action, score and size of a decision are in range. -/
structure Sanitized (constants : Constants) (payload : Payload) : Prop where
  action : ∃ text, payload.lookup "action" = some (.str text) ∧ text ∈ Agent.validActions
  score : ∃ x, payload.lookup "reasoning_score" = some (.float x) ∧ 0 ≤ x ∧ x ≤ 1
  size : ∃ x, payload.lookup "size_pct" = some (.float x) ∧ 0 < x ∧
    x ≤ constants .maxRiskPerTradePct

namespace Agent

/-! ## Reading what was written -/

section

variable {interpreter : Interpreter}

theorem floatOr_toValue (number : Number) :
    interpreter.floatOr (some number.toValue) 0 = .ok number := by
  cases number with
  | finite value =>
      by_cases zero : value = 0 <;>
        simp [Interpreter.floatOr, Value.orElse, Number.toValue, Value.truthy, Interpreter.float,
          zero]
  | nonFinite value =>
      simp [Interpreter.floatOr, Value.orElse, Number.toValue, Value.truthy, Interpreter.float]

end

variable {agent : Agent}

/-- Confidence that the hierarchy leaves. -/
def confidenceUnder : Option Downgrade → Number → Number
  | some .maxDrawdownExceeded, _ => .finite 0
  | some .icMisalignment, stated => (stated.mul (.finite (3 / 10))).round 4
  | _, stated => stated

theorem lookup_downgrade (decision others : Payload) (riskFactors : List Value)
    (factor key : String) (distinct : key ≠ "risk_factors") :
    (downgrade decision riskFactors factor others).lookup key =
      (update (Dict.set "action" (.str "hold") decision) others).lookup key := by
  simp only [downgrade, update]
  rw [List.cons_append, List.foldl_cons, List.foldl_append, List.foldl_cons, List.foldl_nil,
    Dict.lookup_set, if_neg distinct]

/-- What the hierarchy leaves of a decision, given the first check that it fails. -/
theorem applyRiskHierarchy_ok {decision context summary : Payload}
    (judged : agent.applyRiskHierarchy decision context = .ok summary) :
    ∃ verdict, agent.riskVerdict decision context = .ok verdict ∧
      (summary.lookup "action" =
        if verdict = none then decision.lookup "action" else some (.str "hold")) ∧
      (∀ stated, agent.interpreter.floatOr (decision.lookup "confidence") 0 = .ok stated →
        agent.interpreter.floatOr (summary.lookup "confidence") 0 =
          .ok (confidenceUnder verdict stated)) ∧
      summary.lookup "size_pct" = decision.lookup "size_pct" ∧
      summary.lookup "rr_ratio" = decision.lookup "rr_ratio" ∧
      summary.lookup "primary_edge" = decision.lookup "primary_edge" := by
  simp only [applyRiskHierarchy, bind_eq_ok] at judged
  obtain ⟨riskFactors, -, verdict, ruled, judged⟩ := judged
  refine ⟨verdict, ruled, ?_⟩
  cases verdict with
  | none =>
      cases judged
      exact ⟨rfl, fun _ read => read, rfl, rfl, rfl⟩
  | some downgrade =>
      cases downgrade with
      | noOpenPosition =>
          cases judged
          simp [lookup_downgrade, update, Dict.lookup_set, confidenceUnder]
      | maxDrawdownExceeded =>
          cases judged
          simp [lookup_downgrade, update, Dict.lookup_set, confidenceUnder]
          exact fun _ _ => floatOr_toValue (.finite 0)
      | icMisalignment =>
          rw [bind_eq_ok] at judged
          obtain ⟨confidence, read, judged⟩ := judged
          cases judged
          simp [lookup_downgrade, update, Dict.lookup_set, confidenceUnder, read, floatOr_toValue]
      | lowConsensus =>
          cases judged
          simp [lookup_downgrade, update, Dict.lookup_set, confidenceUnder]

theorem decisionPayload_ok {data context summary payload : Payload} {traceId : String}
    {costUsd weightScale : Number} {occasion : Occasion}
    (published : agent.decisionPayload data context summary traceId costUsd weightScale occasion =
      .ok payload) :
    ∃ action confidence sizePct rrRatio, publishedAction summary = .ok action ∧
      agent.interpreter.floatOr (summary.lookup "confidence") 0 = .ok confidence ∧
      agent.rrRatio summary = .ok rrRatio ∧
      agent.computeKellyPositionSize summary ((context.lookup "macro_regime").getD .none) action =
        .ok sizePct ∧
      payload.lookup "action" = some (.str action) ∧
      payload.lookup "reasoning_score" = some ((confidence.mul weightScale).round 6).toValue ∧
      payload.lookup "size_pct" = some sizePct.toValue := by
  simp only [decisionPayload, bind_eq_ok] at published
  obtain ⟨action, named, confidence, read, _, -, _, -, _, -, sizePct, sized, _, -, rrRatio,
    ratioRead, built⟩ := published
  cases built
  exact ⟨action, confidence, sizePct, rrRatio, named, read, ratioRead, sized, rfl, rfl, rfl⟩

/-! ## Kelly fractions -/

/-- The scaled Kelly fraction of a confidence at a ratio of reward to risk. -/
def kellyEdge (agent : Agent) (confidence ratio : ℚ) : ℚ :=
  (confidence * ratio - (1 - confidence)) / ratio * agent.constants .kellyFractionScale

/-- The fraction is still positive when rounded to six places. -/
def KellyPositive (agent : Agent) (confidence : ℚ) (rrRatio : Number) : Prop :=
  ∃ ratio, rrRatio = .finite ratio ∧ 5 / 10 ^ 7 < agent.kellyEdge confidence ratio

theorem bounds (agent : Agent) :
    0 < agent.constants .stopLossPct ∧ 5 / 1000 ≤ agent.constants .maxRiskPerTradePct ∧
      0 < agent.constants .kellyFractionScale := by
  have stop := (agent.within .stopLossPct).1
  have risk := (agent.within .maxRiskPerTradePct).1
  have kelly := (agent.within .kellyFractionScale).1
  norm_num [paramBounds] at stop risk kelly
  exact ⟨by linarith, by linarith, by linarith⟩

/-- The ratio is at least `MIN_RR_RATIO`, where it is a number at all. -/
theorem rrRatio_cases {summary : Payload} {rrRatio : Number}
    (read : agent.rrRatio summary = .ok rrRatio) :
    (∃ ratio, rrRatio = .finite ratio ∧ 2 ≤ ratio) ∨ rrRatio = .nonFinite .infinity ∨
      rrRatio = .nonFinite .nan := by
  simp only [Agent.rrRatio, bind_eq_ok] at read
  obtain ⟨stated, -, read⟩ := read
  cases read
  rcases stated with stated | kind
  · exact Or.inl ⟨_, Number.max_finite, le_max_right _ _⟩
  · cases kind with
    | infinity => exact Or.inr (Or.inl rfl)
    | negativeInfinity => exact Or.inl ⟨minRrRatio, rfl, le_refl _⟩
    | nan => exact Or.inr (Or.inr rfl)

theorem computeDynamicPositionSize_finite {confidence stopLoss ratio kellyScale maxRisk : ℚ}
    (positive : 0 < stopLoss) (atLeast : 2 ≤ ratio) :
    computeDynamicPositionSize (.finite confidence) stopLoss
        (Number.mul (.finite stopLoss) (.finite ratio)) kellyScale maxRisk =
      .ok (.finite
        (if 0 < confidence ∧ 0 < (confidence * ratio - (1 - confidence)) / ratio then
          roundHalfEven 6
            (min ((confidence * ratio - (1 - confidence)) / ratio * kellyScale) maxRisk)
        else 0)) := by
  have win : 0 < stopLoss * ratio := mul_pos positive (by linarith)
  have best : max (stopLoss * ratio) (stopLoss * 2) = stopLoss * ratio :=
    max_eq_left (mul_le_mul_of_nonneg_left atLeast positive.le)
  have odds : stopLoss * ratio / stopLoss = ratio := by field_simp
  have nonzero : ratio ≠ 0 := by linarith
  by_cases hopeful : 0 < confidence
  · simp only [computeDynamicPositionSize, computeKellySize, Number.le_finite, Number.mul_finite,
      Number.max_finite, best, Number.div, odds, Number.sub, Number.neg, Number.add, bind,
      Except.bind, pure, Except.pure, not_le.mpr hopeful, not_le.mpr positive, not_le.mpr win,
      positive.ne', nonzero, decide_false, Bool.or_self, if_false, Bool.false_eq_true, or_self,
      true_and, hopeful]
    have sum : confidence * ratio + -(1 + -confidence) = confidence * ratio - (1 - confidence) := by
      ring
    rw [sum]
    by_cases favourable : 0 < (confidence * ratio - (1 - confidence)) / ratio
    · simp [favourable]
    · simp [favourable, not_lt.mp favourable]
  · simp [computeDynamicPositionSize, hopeful, not_lt.mp hopeful]
    rfl

/-- No Kelly size of a rational confidence is positive at a ratio that is not rational. -/
theorem computeDynamicPositionSize_nonFinite {confidence stopLoss kellyScale maxRisk : ℚ}
    {kind : NonFinite} (positive : 0 < stopLoss) (notBelow : kind ≠ .negativeInfinity) :
    ∃ kellySize, computeDynamicPositionSize (.finite confidence) stopLoss
        (Number.mul (.finite stopLoss) (.nonFinite kind)) kellyScale maxRisk = .ok kellySize ∧
      Number.lt (.finite 0) kellySize = false := by
  by_cases hopeful : 0 < confidence
  · refine ⟨.nonFinite .nan, ?_, rfl⟩
    cases kind with
    | negativeInfinity => exact absurd rfl notBelow
    | infinity =>
        simp [computeDynamicPositionSize, computeKellySize, Number.mul, Number.max, Number.lt,
          Number.le, Number.div, Number.sub, Number.neg, Number.add, Number.infinityOf,
          Number.signOf, Number.min, Number.round, bind, Except.bind, pure, Except.pure,
          hopeful, positive, not_le.mpr hopeful, not_le.mpr positive, positive.ne']
    | nan =>
        simp [computeDynamicPositionSize, computeKellySize, Number.mul, Number.max, Number.lt,
          Number.le, Number.div, Number.sub, Number.neg, Number.add, Number.infinityOf,
          Number.signOf, Number.min, Number.round, bind, Except.bind, pure, Except.pure,
          not_le.mpr hopeful, not_le.mpr positive, positive.ne']
  · refine ⟨.finite 0, ?_, by simp⟩
    simp [computeDynamicPositionSize, not_lt.mp hopeful]
    rfl

/-- The size is in range: the rounded Kelly fraction where it is positive, halved or within the
cap, and else the size that the decision states. -/
def SizeInRange (agent : Agent) (decision : Payload) (confidence : ℚ) (rrRatio : Number)
    (multiplier : ℚ) : Prop :=
  (∃ ratio, rrRatio = .finite ratio ∧ 5 / 10 ^ 7 < agent.kellyEdge confidence ratio ∧
      (multiplier < 1 ∨
        roundHalfEven 6
          (min (agent.kellyEdge confidence ratio) (agent.constants .maxRiskPerTradePct)) ≤
            agent.constants .maxRiskPerTradePct)) ∨
    (¬agent.KellyPositive confidence rrRatio ∧
      ∃ stated, agent.interpreter.floatOr (decision.lookup "size_pct") (1 / 100) = .ok stated ∧
        Number.lt (.finite 0) stated = true)

/-- A positive edge needs a positive confidence. -/
theorem hopeful_of_kellyEdge {confidence ratio : ℚ} (atLeast : 2 ≤ ratio)
    (edge : 0 < agent.kellyEdge confidence ratio) :
    0 < confidence ∧ 0 < (confidence * ratio - (1 - confidence)) / ratio := by
  have favourable : 0 < (confidence * ratio - (1 - confidence)) / ratio :=
    pos_of_mul_pos_left edge agent.bounds.2.2.le
  refine ⟨?_, favourable⟩
  have above : 0 < confidence * ratio - (1 - confidence) := by
    by_contra notAbove
    exact absurd favourable (not_lt.mpr (div_nonpos_of_nonpos_of_nonneg (not_lt.mp notAbove)
      (by linarith)))
  by_contra notHopeful
  nlinarith [not_lt.mp notHopeful]

theorem sizeMultiplier_cases (regime : Option Value) (isLong : Bool) :
    RegimeRisk.sizeMultiplier regime isLong = 1 ∨
      RegimeRisk.sizeMultiplier regime isLong = 1 / 2 := by
  rw [RegimeRisk.sizeMultiplier]
  split_ifs
  · exact Or.inr (by norm_num [riskOffSizeMultiplier])
  · exact Or.inl rfl

theorem scaled_in_range_iff {size cap multiplier : ℚ} (scale : multiplier = 1 ∨ multiplier = 1 / 2)
    (near : size ≤ 2 * cap) (positive : 0 < size) :
    (0 < size * multiplier ∧ size * multiplier ≤ cap) ↔ (multiplier < 1 ∨ size ≤ cap) := by
  rcases scale with rfl | rfl
  · simp [positive]
  · refine ⟨fun _ => Or.inl (by norm_num), fun _ => ⟨by linarith, by linarith⟩⟩

theorem kellySize_cases {summary : Payload} {confidence : ℚ} {rrRatio kellySize : Number}
    (ratioRead : agent.rrRatio summary = .ok rrRatio)
    (computed : computeDynamicPositionSize (.finite confidence) (agent.constants .stopLossPct)
      (Number.mul (.finite (agent.constants .stopLossPct)) rrRatio)
      (agent.constants .kellyFractionScale) (agent.constants .maxRiskPerTradePct) =
        .ok kellySize) :
    (∃ ratio, rrRatio = .finite ratio ∧ 5 / 10 ^ 7 < agent.kellyEdge confidence ratio ∧
        kellySize = .finite (roundHalfEven 6
          (min (agent.kellyEdge confidence ratio) (agent.constants .maxRiskPerTradePct)))) ∨
      (¬agent.KellyPositive confidence rrRatio ∧ Number.lt (.finite 0) kellySize = false) := by
  obtain ⟨stop, risk, kelly⟩ := agent.bounds
  rcases rrRatio_cases ratioRead with ⟨ratio, rfl, atLeast⟩ | nonFinite
  · rw [computeDynamicPositionSize_finite stop atLeast] at computed
    cases computed
    change (∃ other, Number.finite ratio = .finite other ∧
      5 / 10 ^ 7 < agent.kellyEdge confidence other ∧
        Number.finite
          (if _ ∧ _ then roundHalfEven 6 (min (agent.kellyEdge confidence ratio) _) else 0) =
          _) ∨ _
    by_cases above : 5 / 10 ^ 7 < agent.kellyEdge confidence ratio
    · refine Or.inl ⟨ratio, rfl, above, ?_⟩
      rw [if_pos (hopeful_of_kellyEdge atLeast (lt_trans (by norm_num) above))]
    · refine Or.inr ⟨?_, ?_⟩
      · rintro ⟨other, same, exceeds⟩
        cases same
        exact above exceeds
      · rw [Number.lt_finite, decide_eq_false_iff_not]
        split_ifs with hopeful
        · rw [roundHalfEven_six_pos_iff]
          exact fun exceeds => above (lt_of_lt_of_le exceeds (min_le_left _ _))
        · exact lt_irrefl _
  · obtain ⟨kind, rfl, notBelow⟩ :
        ∃ kind, rrRatio = .nonFinite kind ∧ kind ≠ .negativeInfinity := by
      rcases nonFinite with infinite | nan
      · exact ⟨_, infinite, by decide⟩
      · exact ⟨_, nan, by decide⟩
    obtain ⟨other, found, notPositive⟩ := computeDynamicPositionSize_nonFinite stop notBelow
    rw [found] at computed
    cases computed
    refine Or.inr ⟨?_, notPositive⟩
    rintro ⟨ratio, same, -⟩
    cases same

/-- The size a decision states, cut to the cap and scaled. -/
theorem stated_in_range_iff {stated : Number} {cap multiplier : ℚ}
    (scale : multiplier = 1 ∨ multiplier = 1 / 2) (positive : 0 < cap) :
    (∃ x, (stated.min (.finite cap)).mul (.finite multiplier) = .finite x ∧ 0 < x ∧ x ≤ cap) ↔
      Number.lt (.finite 0) stated = true := by
  cases stated with
  | finite stated =>
      have cut := min_le_right stated cap
      rw [Number.min_finite, Number.mul_finite, Number.lt_finite, decide_eq_true_eq]
      constructor
      · rintro ⟨x, same, above, -⟩
        cases same
        have smaller : 0 < min stated cap := by
          rcases scale with rfl | rfl <;> linarith
        exact lt_of_lt_of_le smaller (min_le_left _ _)
      · intro above
        have smaller : 0 < min stated cap := lt_min above positive
        refine ⟨_, rfl, ?_, ?_⟩ <;> rcases scale with rfl | rfl <;> linarith
  | nonFinite kind =>
      cases kind with
      | infinity =>
          refine ⟨fun _ => rfl, fun _ => ⟨cap * multiplier, rfl, ?_, ?_⟩⟩ <;>
            rcases scale with rfl | rfl <;> linarith
      | negativeInfinity => simp [Number.min, Number.lt, Number.mul]
      | nan => simp [Number.min, Number.lt, Number.mul]

/-- The published size is in range exactly where the decision's fields allow it. -/
theorem computeKellyPositionSize_iff {summary : Payload} {macroRegime : Value} {action : String}
    {confidence : ℚ} {rrRatio size : Number}
    (stated : agent.interpreter.floatOr (summary.lookup "confidence") 0 = .ok (.finite confidence))
    (ratioRead : agent.rrRatio summary = .ok rrRatio)
    (sized : agent.computeKellyPositionSize summary macroRegime action = .ok size) :
    (∃ x, size = .finite x ∧ 0 < x ∧ x ≤ agent.constants .maxRiskPerTradePct) ↔
      agent.SizeInRange summary confidence rrRatio
        (RegimeRisk.sizeMultiplier (RegimeRisk.regimeOf macroRegime) (lower action = "buy")) := by
  obtain ⟨stop, risk, kelly⟩ := agent.bounds
  have scale := sizeMultiplier_cases (RegimeRisk.regimeOf macroRegime) (lower action = "buy")
  simp only [computeKellyPositionSize, stated, ratioRead, bind_eq_ok, Except.ok.injEq,
    exists_eq_left'] at sized
  generalize RegimeRisk.sizeMultiplier (RegimeRisk.regimeOf macroRegime) (lower action = "buy") =
    multiplier at scale sized ⊢
  obtain ⟨kellySize, computed, sized⟩ := sized
  rcases kellySize_cases ratioRead computed with ⟨ratio, rfl, above, rfl⟩ | ⟨notKelly, notPositive⟩
  · have positive : 0 < roundHalfEven 6
        (min (agent.kellyEdge confidence ratio) (agent.constants .maxRiskPerTradePct)) := by
      rw [roundHalfEven_six_pos_iff]
      exact lt_min above (by linarith)
    have rounded := roundHalfEven_le 6
      (min (agent.kellyEdge confidence ratio) (agent.constants .maxRiskPerTradePct))
    have cut := min_le_right (agent.kellyEdge confidence ratio)
      (agent.constants .maxRiskPerTradePct)
    have near : roundHalfEven 6
        (min (agent.kellyEdge confidence ratio) (agent.constants .maxRiskPerTradePct)) ≤
          2 * agent.constants .maxRiskPerTradePct := by
      linarith
    rw [if_pos (by simpa using positive)] at sized
    cases sized
    have range := scaled_in_range_iff scale near positive
    constructor
    · rintro ⟨x, same, inRange⟩
      cases same
      exact Or.inl ⟨ratio, rfl, above, range.mp inRange⟩
    · rintro (⟨other, same, -, within⟩ | ⟨notKelly, -⟩)
      · cases same
        exact ⟨_, rfl, range.mpr within⟩
      · exact absurd ⟨ratio, rfl, above⟩ notKelly
  · rw [if_neg (by simp [notPositive])] at sized
    simp only [bind_eq_ok] at sized
    obtain ⟨stated, read, cut, built, sized⟩ := sized
    cases built
    cases sized
    rw [stated_in_range_iff scale (by linarith)]
    constructor
    · intro positive
      exact Or.inr ⟨notKelly, stated, read, positive⟩
    · rintro (⟨ratio, same, above, -⟩ | ⟨-, other, found, positive⟩)
      · exact absurd ⟨ratio, same, above⟩ notKelly
      · rw [read] at found
        cases found
        exact positive

/-! ## From a reply to the published decision -/

/-- A decision that the hierarchy rejects, or whose fields are in range: its action is one of the
four, its scaled confidence lies between zero and one up to rounding, and its size is in range. -/
def InRange (agent : Agent) (decision context : Payload) (weightScale : Number) : Prop :=
  ∃ verdict stated rrRatio confidence scale action,
    agent.riskVerdict decision context = .ok verdict ∧
    agent.interpreter.floatOr (decision.lookup "confidence") 0 = .ok stated ∧
    agent.rrRatio decision = .ok rrRatio ∧
    confidenceUnder verdict stated = .finite confidence ∧ weightScale = .finite scale ∧
    action = (if verdict = none then lower (agent.interpreter.str
      ((decision.lookup "action").getD (.str ""))) else "hold") ∧
    action ∈ validActions ∧
    (-(5 / 10 ^ 7) ≤ confidence * scale ∧ confidence * scale ≤ 1 + 5 / 10 ^ 7) ∧
    agent.SizeInRange decision confidence rrRatio
      (RegimeRisk.sizeMultiplier
        (RegimeRisk.regimeOf ((context.lookup "macro_regime").getD .none)) (action = "buy"))

theorem sanitized_iff {data context decision summary payload : Payload} {traceId label : String}
    {costUsd weightScale : Number} {occasion : Occasion}
    (stated : ∃ confidence,
      agent.interpreter.floatOr (decision.lookup "confidence") 0 = .ok confidence)
    (judged : agent.applyRiskHierarchy decision context = .ok summary)
    (published : agent.decisionPayload data context (Dict.set "model_used" (.str label) summary)
      traceId costUsd weightScale occasion = .ok payload) :
    Sanitized agent.constants payload ↔ agent.InRange decision context weightScale := by
  obtain ⟨stated, read⟩ := stated
  obtain ⟨verdict, ruled, actionField, confidenceField, sizeField, ratioField, -⟩ :=
    applyRiskHierarchy_ok judged
  obtain ⟨action, confidence, size, rrRatio, named, found, ratioRead, sized, isAction, isScore,
    isSize⟩ := decisionPayload_ok published
  have kept : ∀ key, key ≠ "model_used" →
      (Dict.set "model_used" (.str label) summary).lookup key = summary.lookup key := by
    intro key other
    rw [Dict.lookup_set, if_neg other]
  -- confidence, ratio and action that are published are those the hierarchy leaves
  have stamped := found
  rw [kept _ (by decide)] at found
  obtain rfl : confidence = confidenceUnder verdict stated := by
    rw [confidenceField stated read] at found
    exact (Except.ok.inj found).symm
  have ratioSame : agent.rrRatio decision = .ok rrRatio := by
    rw [← ratioRead, Agent.rrRatio, Agent.rrRatio, kept _ (by decide), ratioField]
  have actionSame : action = if verdict = none then lower (agent.interpreter.str
      ((decision.lookup "action").getD (.str ""))) else "hold" := by
    rw [publishedAction, kept _ (by decide), actionField] at named
    split_ifs at named ⊢ with accepted
    · cases held : (decision.lookup "action").getD (.str "") with
      | str text =>
          rw [held] at named
          cases named
          rfl
      | _ => simp [held] at named
    · cases named
      decide
  have lowered : lower action = action := by
    rw [actionSame]
    split_ifs
    · exact lower_lower _
    · decide
  have size_iff : ∀ rational, confidenceUnder verdict stated = .finite rational →
      ((∃ x, payload.lookup "size_pct" = some (.float x) ∧ 0 < x ∧
          x ≤ agent.constants .maxRiskPerTradePct) ↔
        agent.SizeInRange decision rational rrRatio
          (RegimeRisk.sizeMultiplier
            (RegimeRisk.regimeOf ((context.lookup "macro_regime").getD .none))
            (action = "buy"))) := by
    intro rational isRational
    rw [isRational] at stamped
    have range := computeKellyPositionSize_iff stamped ratioRead sized
    rw [lowered, SizeInRange, kept _ (by decide), sizeField] at range
    simp only [isSize, Option.some.injEq, Number.toValue_eq_float]
    exact range
  constructor
  · rintro ⟨⟨text, isText, valid⟩, ⟨x, isX, unit⟩, size⟩
    rw [isAction] at isText
    rw [isScore, Option.some.injEq, Number.toValue_eq_float, Number.round_eq_finite] at isX
    obtain ⟨product, multiplied, rfl⟩ := isX
    obtain ⟨rational, scale, isRational, isScale, rfl⟩ := Number.mul_eq_finite.mp multiplied
    cases isText
    exact ⟨verdict, stated, rrRatio, rational, scale, action, ruled, read, ratioSame, isRational,
      isScale, actionSame, valid, roundHalfEven_six_unit_iff.mp unit,
      (size_iff rational isRational).mp size⟩
  · rintro ⟨verdict', stated', rrRatio', rational, scale, action', ruled', read', ratio',
      isRational, isScale, action'Same, valid, unit, size⟩
    obtain rfl : verdict = verdict' := Except.ok.inj (ruled.symm.trans ruled')
    obtain rfl : stated = stated' := Except.ok.inj (read.symm.trans read')
    obtain rfl : rrRatio = rrRatio' := Except.ok.inj (ratioSame.symm.trans ratio')
    obtain rfl : action = action' := actionSame.trans action'Same.symm
    refine ⟨⟨action, isAction, valid⟩, ⟨roundHalfEven 6 (rational * scale), ?_,
      roundHalfEven_six_unit_iff.mpr unit⟩, (size_iff rational isRational).mpr size⟩
    rw [isScore, isRational, isScale]
    rfl

/-- A refined decision states a number as its confidence, if it differs at all. -/
theorem refine_confidence {decision refined : Payload} {critique : Value}
    (ok : agent.refine decision critique = .ok refined) :
    refined = decision ∨ ∃ confidence : Number,
      refined.lookup "confidence" = some confidence.toValue := by
  simp only [refine, bind_eq_ok] at ok
  obtain ⟨entries, -, ok⟩ := ok
  split_ifs at ok with justified
  · cases ok
    exact Or.inl rfl
  · simp only [bind_eq_ok] at ok
    obtain ⟨_, -, _, -, confidence, -, _, -, _, -, _, -, ok⟩ := ok
    cases ok
    exact Or.inr ⟨confidence.round 4, by simp [update, Dict.lookup_set]⟩

theorem selfCritique_cases (decision : Payload) (critique : LlmCall) :
    (agent.selfCritique decision critique).1 = decision ∨
      ∃ value, agent.refine decision value = .ok (agent.selfCritique decision critique).1 := by
  rcases critique with ⟨_ | raw, costUsd, label⟩ | _ | _
  · exact Or.inl rfl
  · cases outcome : agent.loads raw >>= agent.refine decision with
    | ok refined =>
        obtain ⟨value, -, kept⟩ := bind_eq_ok.mp outcome
        simp only [selfCritique, outcome]
        exact Or.inr ⟨value, kept⟩
    | error error =>
        simp only [selfCritique, outcome]
        exact Or.inl trivial
  · exact Or.inl rfl
  · exact Or.inl rfl

/-- The decision that enters the hierarchy has a confidence that reads as a number. -/
theorem reviewed_confidence {produced : Produced} {critique : LlmCall} {decision : Payload}
    {total : Number} (ok : agent.reviewed produced critique = .ok (decision, total)) :
    ∃ confidence,
      agent.interpreter.floatOr (decision.lookup "confidence") 0 = .ok confidence := by
  simp only [reviewed, bind_eq_ok] at ok
  obtain ⟨confidence, read, ok⟩ := ok
  split_ifs at ok with criticised
  · cases ok
    rcases agent.selfCritique_cases produced.summary critique with same | ⟨value, refined⟩
    · rw [same]
      exact ⟨confidence, read⟩
    · rcases refine_confidence refined with same | ⟨restated, held⟩
      · rw [same]
        exact ⟨confidence, read⟩
      · rw [held]
        exact ⟨restated, floatOr_toValue restated⟩
  · cases ok
    exact ⟨confidence, read⟩

/-- A reply is published in range exactly where the decision that its critique leaves is. -/
theorem process_sanitized_iff (agent : Agent) (data : Payload) (occasion : Occasion)
    {completion : Completion} {reply payload : Payload} {costUsd : Number}
    {modelLabel : Option String} (asked : agent.settings.decisionMode ≠ "policy")
    (funded : occasion.budgetUsed < agent.settings.dailyTokenBudget)
    (answered : occasion.call = .answered completion costUsd modelLabel)
    (object : agent.readReply completion = .ok reply)
    (published : agent.process data occasion = .ok payload) :
    Sanitized agent.constants payload ↔ ∃ decision total,
      agent.reviewed ⟨reply, costUsd, none, modelLabel⟩ occasion.critique = .ok (decision, total) ∧
      agent.InRange decision occasion.context
        (agent.weightScale occasion.weightScale occasion.agentTrust) := by
  have replied : agent.produced data occasion = .ok ⟨reply, costUsd, none, modelLabel⟩ := by
    simp only [produced, produceDecision]
    rw [if_neg asked, if_neg (not_le.mpr funded), answered]
    simp only [object]
  simp only [process, replied, bind_eq_ok, Except.ok.injEq, exists_eq_left'] at published
  obtain ⟨⟨decision, total⟩, heard, summary, judged, published⟩ := published
  rw [sanitized_iff (reviewed_confidence heard) judged published]
  constructor
  · intro inRange
    exact ⟨decision, total, heard, inRange⟩
  · rintro ⟨other, cost, same, inRange⟩
    rw [heard] at same
    cases same
    exact inRange

/-! ## A reply outside its contract -/

/-- An agent with the defaults. -/
def plainAgent : Agent where
  interpreter := Reference.decimalInterpreter
  within := defaultConstants_within

def bitcoinSignal : Payload :=
  [("symbol", .str "BTC/USD"), ("price", .float 100), ("composite_score", .float (8 / 10))]

/-- The model answers with an object. -/
def answeredBy (reply : Payload) : Occasion where
  call := .answered (.object reply) (.finite 0) none

/-- A reply inside its contract. -/
def calmReply : Payload :=
  [("action", .str "buy"), ("confidence", .float (8 / 10)), ("size_pct", .float (1 / 100))]

/-- A reply outside its contract in all three fields. -/
def wildReply : Payload :=
  [("action", .str "short"), ("confidence", .float (-3)), ("size_pct", .float (-1))]

theorem process_answeredBy {reply : Payload}
    (ends : (plainAgent.process bitcoinSignal (answeredBy reply)).toOption.isSome = true) :
    ∃ payload, plainAgent.process bitcoinSignal (answeredBy reply) = .ok payload := by
  cases outcome : plainAgent.process bitcoinSignal (answeredBy reply) with
  | error error => simp [outcome, Except.toOption] at ends
  | ok payload => exact ⟨payload, rfl⟩

theorem calmReply_sanitized_iff :
    ∃ payload, plainAgent.process bitcoinSignal (answeredBy calmReply) = .ok payload ∧
      (Sanitized plainAgent.constants payload ↔ ∃ decision total,
        plainAgent.reviewed ⟨calmReply, .finite 0, none, none⟩ .timedOut = .ok (decision, total) ∧
        plainAgent.InRange decision [] (plainAgent.weightScale none none)) := by
  obtain ⟨payload, published⟩ := @process_answeredBy calmReply (by decide +kernel)
  exact ⟨payload, published, process_sanitized_iff plainAgent bitcoinSignal (answeredBy calmReply)
    (by decide) (by decide) rfl rfl published⟩

/-- A short sale of confidence -3 and size -1 is published as it stands. -/
theorem wildReply_published :
    ∃ payload, plainAgent.process bitcoinSignal (answeredBy wildReply) = .ok payload ∧
      (payload.lookup "action").any (Value.isText "short") ∧
      (payload.lookup "reasoning_score").any (Value.equal (.float (-3))) ∧
      (payload.lookup "size_pct").any (Value.equal (.float (-1))) ∧
      ¬Sanitized plainAgent.constants payload := by
  obtain ⟨payload, published⟩ := @process_answeredBy wildReply (by decide +kernel)
  have holds : ∀ key (test : Value → Bool),
      ((plainAgent.process bitcoinSignal (answeredBy wildReply)).toOption.bind (·.lookup key)).any
        test = true → (payload.lookup key).any test = true := by
    intro key test held
    rw [published] at held
    exact held
  have short := holds "action" (Value.isText "short") (by decide +kernel)
  refine ⟨payload, published, short, holds _ _ (by decide +kernel), holds _ _ (by decide +kernel),
    fun sanitized => ?_⟩
  obtain ⟨text, held, valid⟩ := sanitized.action
  rw [held] at short
  obtain rfl : text = "short" := by simpa [Value.isText] using short
  simp [validActions] at valid

end Agent

end TradingControl.Reasoning
