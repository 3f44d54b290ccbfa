import TradingControl.Reasoning.PolicyRaises

/-!
# Order of the policy

A feature or a regime that speaks more for a purchase never turns the policy towards a sale.  The
regime and the momentum move the cut of a purchase as well as the blend, and the floor of a regime
stops purchases, all in the direction in which they move the blend.
-/

namespace TradingControl.Reasoning

open Python

/-! ## Inputs -/

/-- `MacroRegime`, from the worst to the best. -/
inductive MacroRegime where
  | riskOff
  | neutral
  | riskOn
deriving DecidableEq, Repr

def MacroRegime.value : MacroRegime → String
  | .riskOff => "risk_off"
  | .neutral => "neutral"
  | .riskOn => "risk_on"

/-- The place in the order. -/
def MacroRegime.rank : MacroRegime → ℚ
  | .riskOff => -1
  | .neutral => 0
  | .riskOn => 1

/-- What the policy does, from a sale to a purchase. -/
inductive PolicyMove where
  | sell
  | hold
  | buy
deriving DecidableEq, Repr

def PolicyMove.value : PolicyMove → String
  | .sell => "sell"
  | .hold => "hold"
  | .buy => "buy"

/-- The place in the order. -/
def PolicyMove.rank : PolicyMove → ℤ
  | .sell => -1
  | .hold => 0
  | .buy => 1

/-- The inputs of a decision as numbers. -/
structure PolicyInputs where
  momentum : ℚ
  sentiment : ℚ
  regime : MacroRegime
  imbalance : ℚ
  compositeScore : ℚ

/-- The context is of the regime; anything that the policy takes for neither of the other two is
neutral. -/
def InRegime (interpreter : Interpreter) (context : Payload) : MacroRegime → Prop
  | .riskOff => RegimeRisk.isRiskOff (tiltRegime context) = true
  | .neutral => regimeSign interpreter (entriesAt context "macro_regime") = 0
  | .riskOn => RegimeRisk.isRiskOn (tiltRegime context) = true

/-- A signal and its context hold the numbers. -/
structure HoldsInputs (interpreter : Interpreter) (data context : Payload)
    (inputs : PolicyInputs) : Prop where
  readable : Readable interpreter data context
  momentum : (features interpreter data context).momentum = inputs.momentum
  sentiment : amount interpreter ((entriesAt context "news_sentiment").lookup "sentiment") =
    .finite inputs.sentiment
  regime : InRegime interpreter context inputs.regime
  imbalance : amount interpreter ((entriesAt context "order_book").lookup "imbalance") =
    .finite inputs.imbalance
  compositeScore : amount interpreter (data.lookup "composite_score") =
    .finite inputs.compositeScore

/-- The second inputs speak as much for a purchase as the first, with the same conviction. -/
structure PolicyInputs.Below (first second : PolicyInputs) : Prop where
  momentum : first.momentum ≤ second.momentum
  sentiment : first.sentiment ≤ second.sentiment
  regime : first.regime.rank ≤ second.regime.rank
  imbalance : first.imbalance ≤ second.imbalance
  compositeScore : first.compositeScore = second.compositeScore

/-- Weights, thresholds and the floor are not negative, and the size has room. -/
structure PolicyParams.Sound (params : PolicyParams) : Prop where
  buyThreshold : 0 ≤ params.buyThreshold
  sellThreshold : 0 ≤ params.sellThreshold
  minConfidence : 0 ≤ params.minConfidence
  wMomentum : 0 ≤ params.wMomentum
  wSentiment : 0 ≤ params.wSentiment
  wMacro : 0 ≤ params.wMacro
  wImbalance : 0 ≤ params.wImbalance
  baseSizePct : 5 / 1000 ≤ params.baseSizePct

def PolicyParams.leaning (params : PolicyParams) (bias : ℚ) : PolicyParams :=
  { params with directionalBias := bias }

/-- What a monotone policy does on numeric inputs. -/
structure MonotonePolicy (interpreter : Interpreter) (params : PolicyParams) : Prop where
  decides : ∀ data context inputs, HoldsInputs interpreter data context inputs →
    ∃ decision, decidePolicy interpreter data context params = .ok decision
  ordered : ∀ {data otherData context otherContext inputs otherInputs bias otherBias decision
      otherDecision},
    HoldsInputs interpreter data context inputs →
    HoldsInputs interpreter otherData otherContext otherInputs →
    inputs.Below otherInputs → bias ≤ otherBias →
    decidePolicy interpreter data context (params.leaning bias) = .ok decision →
    decidePolicy interpreter otherData otherContext (params.leaning otherBias) =
      .ok otherDecision →
    ∃ move otherMove : PolicyMove, decision.lookup "action" = some (.str move.value) ∧
      otherDecision.lookup "action" = some (.str otherMove.value) ∧ move.rank ≤ otherMove.rank
  holds : ∀ {data context inputs decision}, HoldsInputs interpreter data context inputs →
    decidePolicy interpreter data context params = .ok decision →
    max 0 (min 1 inputs.compositeScore) < params.minConfidence →
    decision.lookup "action" = some (.str "hold")
  sized : ∀ {data context inputs decision}, HoldsInputs interpreter data context inputs →
    decidePolicy interpreter data context params = .ok decision →
    ∃ size, 5 / 1000 ≤ size ∧ size ≤ params.baseSizePct ∧
      decision.lookup "size_pct" = some (.float (roundHalfEven 4 size))
  sizeOrdered : ∀ {data otherData context otherContext inputs otherInputs decision otherDecision},
    HoldsInputs interpreter data context inputs →
    HoldsInputs interpreter otherData otherContext otherInputs →
    inputs.compositeScore ≤ otherInputs.compositeScore →
    decidePolicy interpreter data context params = .ok decision →
    decidePolicy interpreter otherData otherContext params = .ok otherDecision →
    ∃ size otherSize, decision.lookup "size_pct" = some (.float size) ∧
      otherDecision.lookup "size_pct" = some (.float otherSize) ∧ size ≤ otherSize

/-! ## Regimes -/

variable {interpreter : Interpreter} {params : PolicyParams} {data context : Payload}
  {inputs : PolicyInputs}

/-- The text of a regime gives the bias of the features too. -/
theorem regimeSign_of_isText {text : String} {regime : Value} (filled : text ≠ "")
    (tilts : tiltRegime context = some regime) (named : regime.isText text = true) :
    regimeSign interpreter (entriesAt context "macro_regime") =
      if lower text = "risk_on" then 1 else if lower text = "risk_off" then -1 else 0 := by
  obtain rfl : regime = .str text := by
    cases regime <;> simp_all [Value.isText]
  cases found : context.lookup "macro_regime" with
  | none => simp [tiltRegime, found, RegimeRisk.regimeOf] at tilts
  | some held =>
      cases held with
      | dict entries =>
          have regime : entries.lookup "regime" = some (.str text) := by
            simpa [tiltRegime, found, RegimeRisk.regimeOf, Value.get] using tilts
          simp [regimeSign, entriesAt, found, regime, Value.orElse, Value.truthy, filled,
            Runtime.str]
      | _ => simp [tiltRegime, found, RegimeRisk.regimeOf] at tilts

theorem regimeSign_of_riskOff (off : RegimeRisk.isRiskOff (tiltRegime context) = true) :
    regimeSign interpreter (entriesAt context "macro_regime") = -1 := by
  cases tilts : tiltRegime context with
  | none => rw [tilts] at off; cases off
  | some regime =>
      rw [tilts] at off
      rw [regimeSign_of_isText (by decide) tilts off]
      decide +kernel

theorem regimeSign_of_riskOn (on : RegimeRisk.isRiskOn (tiltRegime context) = true) :
    regimeSign interpreter (entriesAt context "macro_regime") = 1 := by
  cases tilts : tiltRegime context with
  | none => rw [tilts] at on; cases on
  | some regime =>
      rw [tilts] at on
      rw [regimeSign_of_isText (by decide) tilts on]
      decide +kernel

section

variable {regime : MacroRegime}

theorem regimeSign_eq_rank (within : InRegime interpreter context regime) :
    regimeSign interpreter (entriesAt context "macro_regime") = regime.rank := by
  cases regime with
  | riskOff => exact regimeSign_of_riskOff within
  | neutral => exact within
  | riskOn => exact regimeSign_of_riskOn within

theorem isRiskOff_iff (within : InRegime interpreter context regime) :
    RegimeRisk.isRiskOff (tiltRegime context) = true ↔ regime = .riskOff := by
  constructor
  · intro off
    have sign := (regimeSign_eq_rank within).symm.trans (regimeSign_of_riskOff off)
    cases regime with
    | riskOff => rfl
    | neutral => norm_num [MacroRegime.rank] at sign
    | riskOn => norm_num [MacroRegime.rank] at sign
  · rintro rfl
    exact within

theorem isRiskOn_iff (within : InRegime interpreter context regime) :
    RegimeRisk.isRiskOn (tiltRegime context) = true ↔ regime = .riskOn := by
  constructor
  · intro on
    have sign := (regimeSign_eq_rank within).symm.trans (regimeSign_of_riskOn on)
    cases regime with
    | riskOff => norm_num [MacroRegime.rank] at sign
    | neutral => norm_num [MacroRegime.rank] at sign
    | riskOn => rfl
  · rintro rfl
    exact within

end

/-- A better regime and a better momentum lower the cut of a purchase. -/
theorem buyThreshold_anti {otherContext : Payload} {otherInputs : PolicyInputs} {default : ℚ}
    (within : InRegime interpreter context inputs.regime)
    (otherWithin : InRegime interpreter otherContext otherInputs.regime)
    (below : inputs.Below otherInputs) (nonneg : 0 ≤ default) :
    RegimeRisk.buyThreshold (tiltRegime otherContext) default otherInputs.momentum ≤
      RegimeRisk.buyThreshold (tiltRegime context) default inputs.momentum := by
  simp only [RegimeRisk.buyThreshold, isRiskOn_iff within, isRiskOn_iff otherWithin]
  have eased : max 0 (default - riskOnBuyThresholdDelta) ≤ default :=
    max_le nonneg (sub_le_self _ (by norm_num [riskOnBuyThresholdDelta]))
  by_cases easy : otherInputs.regime = .riskOn ∧ 0 ≤ otherInputs.momentum
  · rw [if_pos easy]
    split_ifs
    · exact le_rfl
    · exact eased
  · have strict : ¬(inputs.regime = .riskOn ∧ 0 ≤ inputs.momentum) := by
      rintro ⟨on, rising⟩
      refine easy ⟨?_, rising.trans below.momentum⟩
      have least := below.regime
      rw [on] at least
      generalize otherInputs.regime = other at least
      cases other with
      | riskOff => norm_num [MacroRegime.rank] at least
      | neutral => norm_num [MacroRegime.rank] at least
      | riskOn => rfl
    rw [if_neg easy, if_neg strict]

/-- A better regime lowers the floor of a purchase. -/
theorem minConfidence_anti {otherContext : Payload} {otherInputs : PolicyInputs} (default : ℚ)
    (within : InRegime interpreter context inputs.regime)
    (otherWithin : InRegime interpreter otherContext otherInputs.regime)
    (below : inputs.Below otherInputs) :
    RegimeRisk.minConfidence (tiltRegime otherContext) default true ≤
      RegimeRisk.minConfidence (tiltRegime context) default true := by
  rw [RegimeRisk.minConfidence, RegimeRisk.minConfidence]
  simp only [Bool.true_and, isRiskOff_iff within, isRiskOff_iff otherWithin]
  by_cases worst : otherInputs.regime = .riskOff
  · have alike : inputs.regime = .riskOff := by
      have least := below.regime
      rw [worst] at least
      generalize inputs.regime = regime at least
      cases regime with
      | riskOff => rfl
      | neutral => norm_num [MacroRegime.rank] at least
      | riskOn => norm_num [MacroRegime.rank] at least
    rw [if_pos worst, if_pos alike]
  · rw [if_neg worst]
    split_ifs
    · exact le_max_left _ _
    · exact le_rfl

/-! ## The blend -/

theorem clamp_mono {low high first second : ℚ} (order : first ≤ second) :
    clamp (.finite first) low high ≤ clamp (.finite second) low high :=
  max_le_max_left low (min_le_min_left high order)

/-- Every term of the blend moves with its feature. -/
theorem score_mono {otherData otherContext : Payload} {otherInputs : PolicyInputs}
    {bias otherBias : ℚ} (sound : params.Sound)
    (holds : HoldsInputs interpreter data context inputs)
    (otherHolds : HoldsInputs interpreter otherData otherContext otherInputs)
    (below : inputs.Below otherInputs) (lean : bias ≤ otherBias) :
    (features interpreter data context).score (params.leaning bias) ≤
      (features interpreter otherData otherContext).score (params.leaning otherBias) := by
  have momentum : params.wMomentum * (features interpreter data context).momentum ≤
      params.wMomentum * (features interpreter otherData otherContext).momentum := by
    rw [holds.momentum, otherHolds.momentum]
    exact mul_le_mul_of_nonneg_left below.momentum sound.wMomentum
  have sentiment : params.wSentiment * (features interpreter data context).sentiment ≤
      params.wSentiment * (features interpreter otherData otherContext).sentiment := by
    rw [features, features, holds.sentiment, otherHolds.sentiment]
    exact mul_le_mul_of_nonneg_left (clamp_mono below.sentiment) sound.wSentiment
  have regime : params.wMacro * (features interpreter data context).macroBias ≤
      params.wMacro * (features interpreter otherData otherContext).macroBias := by
    rw [features, features, regimeSign_eq_rank holds.regime, regimeSign_eq_rank otherHolds.regime]
    exact mul_le_mul_of_nonneg_left below.regime sound.wMacro
  have imbalance : params.wImbalance * (features interpreter data context).imbalance ≤
      params.wImbalance * (features interpreter otherData otherContext).imbalance := by
    rw [features, features, holds.imbalance, otherHolds.imbalance]
    exact mul_le_mul_of_nonneg_left (clamp_mono below.imbalance) sound.wImbalance
  refine roundHalfEven_mono (clamp_mono ?_)
  exact add_le_add (add_le_add (add_le_add (add_le_add momentum sentiment) regime) imbalance) lean

/-! ## The action -/

/-- The move of `policyAction`. -/
def moveOf (params : PolicyParams) (confidence score buyCut longFloor : ℚ) : PolicyMove :=
  if confidence < params.minConfidence then .hold
  else if buyCut ≤ score then if confidence < longFloor then .hold else .buy
  else if score ≤ -params.sellThreshold then .sell
  else .hold

variable {confidence score otherScore buyCut otherCut longFloor otherFloor : ℚ}

theorem policyAction_eq_moveOf :
    (policyAction interpreter params confidence score buyCut longFloor).1 =
      (moveOf params confidence score buyCut longFloor).value := by
  rw [policyAction, moveOf]
  split_ifs <;> simp_all [PolicyMove.value]

/-- The move rises with the score, and falls with the cut and the floor of a purchase. -/
theorem moveOf_mono (scores : score ≤ otherScore) (cuts : otherCut ≤ buyCut)
    (floors : otherFloor ≤ longFloor) :
    (moveOf params confidence score buyCut longFloor).rank ≤
      (moveOf params confidence otherScore otherCut otherFloor).rank := by
  rw [moveOf, moveOf]
  by_cases unsure : confidence < params.minConfidence
  · rw [if_pos unsure, if_pos unsure]
  rw [if_neg unsure, if_neg unsure]
  by_cases bought : buyCut ≤ score
  · have boughtToo : otherCut ≤ otherScore := (cuts.trans bought).trans scores
    rw [if_pos bought, if_pos boughtToo]
    by_cases stopped : confidence < otherFloor
    · rw [if_pos stopped, if_pos (stopped.trans_le floors)]
    · rw [if_neg stopped]
      split_ifs <;> decide
  · rw [if_neg bought]
    by_cases sold : score ≤ -params.sellThreshold
    · rw [if_pos sold]
      split_ifs <;> decide
    · -- what did not sell before does not sell now
      have unsold : ¬ otherScore ≤ -params.sellThreshold := fun low => sold (scores.trans low)
      rw [if_neg sold, if_neg unsold]
      split_ifs <;> decide

theorem moveOf_hold (unsure : confidence < params.minConfidence) :
    moveOf params confidence score buyCut longFloor = .hold :=
  if_pos unsure

/-- The move for the features of the inputs. -/
def chosenMove (interpreter : Interpreter) (params : PolicyParams) (data context : Payload) :
    PolicyMove :=
  let features := features interpreter data context
  moveOf params features.confidence (features.score params)
    (RegimeRisk.buyThreshold (tiltRegime context) params.buyThreshold features.momentum)
    (RegimeRisk.minConfidence (tiltRegime context) params.minConfidence true)

theorem action_of_decided {decision : Payload}
    (decided : decidePolicy interpreter data context params = .ok decision) :
    decision.lookup "action" = some (.str (chosenMove interpreter params data context).value) := by
  rw [(readable_of_decided decided).2.1, chosenAction, policyAction_eq_moveOf]
  rfl

section

variable {otherData otherContext : Payload} {otherInputs : PolicyInputs}

theorem confidence_eq (holds : HoldsInputs interpreter data context inputs) :
    (features interpreter data context).confidence = max 0 (min 1 inputs.compositeScore) := by
  rw [features, holds.compositeScore]
  rfl

theorem chosenMove_mono {bias otherBias : ℚ} (sound : params.Sound)
    (holds : HoldsInputs interpreter data context inputs)
    (otherHolds : HoldsInputs interpreter otherData otherContext otherInputs)
    (below : inputs.Below otherInputs) (lean : bias ≤ otherBias) :
    (chosenMove interpreter (params.leaning bias) data context).rank ≤
      (chosenMove interpreter (params.leaning otherBias) otherData otherContext).rank := by
  have alike : (features interpreter data context).confidence =
      (features interpreter otherData otherContext).confidence := by
    rw [confidence_eq holds, confidence_eq otherHolds, below.compositeScore]
  have cuts := buyThreshold_anti holds.regime otherHolds.regime below sound.buyThreshold
  have floors := minConfidence_anti params.minConfidence holds.regime otherHolds.regime below
  have scores := score_mono sound holds otherHolds below lean
  rw [← holds.momentum, ← otherHolds.momentum] at cuts
  rw [chosenMove, chosenMove, alike]
  -- the lean enters the score only
  exact moveOf_mono scores cuts floors

/-! ## The size -/

theorem sizePct_mono (nonneg : 0 ≤ params.baseSizePct)
    (holds : HoldsInputs interpreter data context inputs)
    (otherHolds : HoldsInputs interpreter otherData otherContext otherInputs)
    (surer : inputs.compositeScore ≤ otherInputs.compositeScore) :
    (features interpreter data context).sizePct params ≤
      (features interpreter otherData otherContext).sizePct params := by
  have confidences : (features interpreter data context).confidence ≤
      (features interpreter otherData otherContext).confidence := by
    rw [confidence_eq holds, confidence_eq otherHolds]
    exact max_le_max_left 0 (min_le_min_left 1 surer)
  exact roundHalfEven_mono (clamp_mono (mul_le_mul_of_nonneg_left confidences nonneg))

end

theorem clamp_mem {low high : ℚ} (ordered : low ≤ high) (value : ℚ) :
    low ≤ clamp (.finite value) low high ∧ clamp (.finite value) low high ≤ high :=
  ⟨le_max_left _ _, max_le ordered (min_le_left _ _)⟩

/-! ## The policy -/

theorem amount_float (number : ℚ) :
    amount interpreter (some (.float number)) = .finite number := by
  by_cases zero : number = 0 <;>
    simp [amount, Interpreter.floatOr, Value.orElse, Value.truthy, Interpreter.float, zero]

theorem inRegime_value (interpreter : Interpreter) (regime : MacroRegime) {context : Payload}
    (found : context.lookup "macro_regime" = some (.dict [("regime", .str regime.value)])) :
    InRegime interpreter context regime := by
  have tilts : tiltRegime context = some (.str regime.value) := by
    simp [tiltRegime, found, RegimeRisk.regimeOf, Value.get]
  cases regime with
  | riskOff => rw [InRegime, tilts]; rfl
  | neutral =>
      rw [InRegime, regimeSign_of_isText (show "neutral" ≠ "" by decide) tilts rfl]
      decide +kernel
  | riskOn => rw [InRegime, tilts]; rfl

theorem namedDirection_bar (pct score : ℚ) :
    namedDirection (directionText interpreter
      [("pct", .float pct), ("composite_score", .float score)]) = none := by
  have empty : directionText interpreter
      [("pct", .float pct), ("composite_score", .float score)] = "" := by
    simp [directionText, Value.orElse, List.lookup_cons, Runtime.str, lower]
  rw [empty]
  rfl

/-- A signal of a bar and its context hold any numbers. -/
theorem holdsInputs_numeric (interpreter : Interpreter) (pct sentiment imbalance score : ℚ)
    (regime : MacroRegime) :
    HoldsInputs interpreter [("pct", .float pct), ("composite_score", .float score)]
      [("news_sentiment", .dict [("sentiment", .float sentiment)]),
        ("macro_regime", .dict [("regime", .str regime.value)]),
        ("order_book", .dict [("imbalance", .float imbalance)])]
      ⟨moveSign (.finite pct), sentiment, regime, imbalance, score⟩ where
  readable := by
    refine ⟨fun value read => ?_, fun key listed value found => ?_⟩
    · have listed : value ∈ [.float sentiment, .float imbalance, .float score, .float pct] := by
        simpa [numericFields, entriesAt, namedDirection_bar, eq_comm, List.lookup_cons] using read
      simp only [List.mem_cons, List.not_mem_nil, or_false] at listed
      rcases listed with rfl | rfl | rfl | rfl <;> rfl
    · simp only [List.mem_cons, List.not_mem_nil, or_false] at listed
      rcases listed with rfl | rfl | rfl
      · cases found; rfl
      · cases found; rfl
      · cases found; rfl
  momentum := by
    rw [features, namedDirection_bar, Option.getD_none]
    exact congrArg moveSign (amount_float pct)
  sentiment := amount_float sentiment
  regime := inRegime_value interpreter regime rfl
  imbalance := amount_float imbalance
  compositeScore := amount_float score

/-- With sound parameters the policy is monotone. -/
theorem monotonePolicy (interpreter : Interpreter) {params : PolicyParams}
    (sound : params.Sound) : MonotonePolicy interpreter params where
  decides := by
    intro data context inputs holds
    exact decided_of_readable params holds.readable
  ordered := by
    intro data otherData context otherContext inputs otherInputs bias otherBias decision
      otherDecision holds otherHolds below lean decided otherDecided
    exact ⟨_, _, action_of_decided decided, action_of_decided otherDecided,
      chosenMove_mono sound holds otherHolds below lean⟩
  holds := by
    intro data context inputs decision holds decided unsure
    rw [← confidence_eq holds] at unsure
    rw [action_of_decided decided, chosenMove, moveOf_hold unsure]
    rfl
  sized := by
    intro data context inputs decision holds decided
    obtain ⟨least, most⟩ := clamp_mem sound.baseSizePct
      (params.baseSizePct * (features interpreter data context).confidence)
    exact ⟨_, least, most, (readable_of_decided decided).2.2⟩
  sizeOrdered := by
    intro data otherData context otherContext inputs otherInputs decision otherDecision holds
      otherHolds surer decided otherDecided
    have nonneg : 0 ≤ params.baseSizePct := le_trans (by norm_num) sound.baseSizePct
    exact ⟨_, _, (readable_of_decided decided).2.2, (readable_of_decided otherDecided).2.2,
      sizePct_mono nonneg holds otherHolds surer⟩

/-- The parameters that the code starts with are sound. -/
theorem monotonePolicy_default :
    MonotonePolicy Reference.decimalInterpreter {} ∧
    ∃ decision, decidePolicy Reference.decimalInterpreter
      [("pct", .float 2), ("composite_score", .float (9 / 10))]
      [("news_sentiment", .dict [("sentiment", .float (1 / 2))]),
        ("macro_regime", .dict [("regime", .str "risk_on")]),
        ("order_book", .dict [("imbalance", .float (-1 / 10))])] {} = .ok decision := by
  have monotone : MonotonePolicy Reference.decimalInterpreter {} :=
    monotonePolicy Reference.decimalInterpreter ⟨by norm_num, by norm_num, by norm_num,
      by norm_num, by norm_num, by norm_num, by norm_num, by norm_num⟩
  exact ⟨monotone, monotone.decides _ _ _ (holdsInputs_numeric _ 2 (1 / 2) (-1 / 10) (9 / 10)
    .riskOn)⟩

end TradingControl.Reasoning
