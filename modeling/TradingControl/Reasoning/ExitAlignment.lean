import TradingControl.Python.Reference
import TradingControl.Reasoning.ReasoningAgent

/-!
# Exits and entries before the weights of the factors

The alignment check reads the composite score, which says how strong a signal is, as if a high one
called for a purchase.  Where the score has the largest weight, a sale and a purchase of the same
strength are judged in opposite ways.
-/

namespace TradingControl.Reasoning

open Python

namespace Agent

variable (agent : Agent)

def withAction (decision : Payload) (action : String) : Payload :=
  Dict.set "action" (.str action) decision

/-- The score that `_ic_aligns` reads. -/
def icScore (decision : Payload) : Except Raised Number :=
  agent.interpreter.float (Value.orElse (decision.lookup "composite_score")
    (Value.orElse (decision.lookup "confidence") (.float 0)))

/-- `context.get("ic_weights", {})`. -/
def icWeights (context : Payload) : Value := (context.lookup "ic_weights").getD (.dict [])

/-- A long position is open. -/
def OpenLong (context : Payload) : Prop :=
  ∃ qty, agent.interpreter.floatOr (context.lookup "open_position_qty") 0 = .ok qty ∧
    qty.le (.finite 0) = false

/-- The hierarchy downgrades a decision for its alignment. -/
def DowngradedByIc (decision context : Payload) : Prop :=
  agent.riskVerdict decision context = .ok (some .icMisalignment) ∧
    ∃ judged, agent.applyRiskHierarchy decision context = .ok judged

/-- The composite score decides: the fields on the way are read, the drawdown does not stop the
decision first, and the score has the largest weight. -/
structure IcDecides (decision context : Payload) : Prop where
  riskFactors : ∃ items,
    (Value.orElse (decision.lookup "risk_factors") (.list [])).items = .ok items
  drawdown : ∃ state, ((context.lookup "risk_state").getD (.dict [])).entries = .ok state ∧
    ∃ drawdown, agent.interpreter.floatOr (state.lookup "drawdown") 0 = .ok drawdown ∧
      drawdown.le (.finite (-15 / 100)) = false
  weighted : (icWeights context).truthy = true
  dominant : agent.dominantFactor (icWeights context) = some "composite_score"
  score : ∃ score, agent.icScore decision = .ok score
  confidence : ∃ confidence,
    agent.interpreter.floatOr (decision.lookup "confidence") 0 = .ok confidence

/-! ## One direction -/

variable {agent} {decision context : Payload}

theorem lookup_withAction (decision : Payload) (action : String) {key : String}
    (other : key ≠ "action") : (withAction decision action).lookup key = decision.lookup key := by
  rw [withAction, Dict.lookup_set, if_neg other]

theorem judgedAction_withAction (decision : Payload) (action : String) :
    agent.judgedAction (withAction decision action) = lower action := by
  rw [judgedAction, withAction, Dict.lookup_set, if_pos rfl]
  rfl

theorem icAligns_withAction (direction : String) (weights : Value) (decision : Payload)
    (action : String) :
    agent.icAligns direction weights (withAction decision action) =
      agent.icAligns direction weights decision := by
  rw [icAligns, icAligns, lookup_withAction decision action (by decide),
    lookup_withAction decision action (by decide)]

theorem icAligns_of_dominant (weighted : (icWeights context).truthy = true)
    (dominant : agent.dominantFactor (icWeights context) = some "composite_score")
    {score : Number} (read : agent.icScore decision = .ok score) (direction : String) :
    agent.icAligns direction (icWeights context) decision =
      .ok (if Number.lt (.finite (5 / 10)) score then direction ∈ ["buy", "long"]
        else direction ∈ ["sell", "hold", "short", "flat"]) := by
  rw [icScore] at read
  rw [icAligns, if_pos ⟨weighted, dominant⟩, read]
  change (if _ then Except.ok _ else Except.ok _) = _
  split_ifs <;> rfl

theorem riskVerdict_eq_icMisalignment_iff (long : agent.OpenLong context) {action : String}
    (lowered : lower action = action) :
    agent.riskVerdict (withAction decision action) context = .ok (some .icMisalignment) ↔
      (∃ state, ((context.lookup "risk_state").getD (.dict [])).entries = .ok state ∧
        ∃ drawdown, agent.interpreter.floatOr (state.lookup "drawdown") 0 = .ok drawdown ∧
          drawdown.le (.finite (-15 / 100)) = false) ∧
        agent.icAligns action (icWeights context) decision = .ok false := by
  obtain ⟨qty, held, positive⟩ := long
  have opened : ¬(agent.judgedAction (withAction decision action) = "sell" ∧
      qty.le (.finite 0) = true) := fun closed => by simp [positive] at closed
  rw [riskVerdict, judgedAction_withAction, lowered, icAligns_withAction] at *
  constructor
  · intro ruled
    obtain ⟨_, again, ruled⟩ := bind_eq_ok.mp ruled
    cases held.symm.trans again
    rw [if_neg opened] at ruled
    obtain ⟨state, entries, ruled⟩ := bind_eq_ok.mp ruled
    obtain ⟨drawdown, read, ruled⟩ := bind_eq_ok.mp ruled
    split at ruled
    · cases ruled
    · next above =>
        obtain ⟨aligned, aligns, ruled⟩ := bind_eq_ok.mp ruled
        cases aligned with
        | false => exact ⟨⟨state, entries, drawdown, read, Bool.eq_false_iff.mpr above⟩, aligns⟩
        | true =>
            obtain ⟨agreement, -, ruled⟩ := bind_eq_ok.mp ruled
            split at ruled <;> cases ruled
  · rintro ⟨⟨state, entries, drawdown, read, above⟩, aligns⟩
    refine bind_eq_ok.mpr ⟨qty, held, ?_⟩
    rw [if_neg opened]
    refine bind_eq_ok.mpr ⟨state, entries, bind_eq_ok.mpr ⟨drawdown, read, ?_⟩⟩
    rw [above, if_neg Bool.false_ne_true]
    exact bind_eq_ok.mpr ⟨false, aligns, rfl⟩

/-- What a decision that fails the alignment needs to be downgraded. -/
theorem applyRiskHierarchy_icMisalignment_iff {judging : Payload}
    (ruled : agent.riskVerdict judging context = .ok (some .icMisalignment)) :
    (∃ judged, agent.applyRiskHierarchy judging context = .ok judged) ↔
      (∃ items, (Value.orElse (judging.lookup "risk_factors") (.list [])).items = .ok items) ∧
        ∃ confidence,
          agent.interpreter.floatOr (judging.lookup "confidence") 0 = .ok confidence := by
  constructor
  · rintro ⟨judged, applied⟩
    rw [applyRiskHierarchy] at applied
    obtain ⟨items, marked, applied⟩ := bind_eq_ok.mp applied
    obtain ⟨verdict, again, applied⟩ := bind_eq_ok.mp applied
    cases ruled.symm.trans again
    obtain ⟨confidence, read, -⟩ := bind_eq_ok.mp applied
    exact ⟨⟨items, marked⟩, confidence, read⟩
  · rintro ⟨⟨items, marked⟩, confidence, read⟩
    refine ⟨downgrade judging items "IC_MISALIGNMENT"
      [("confidence", ((confidence.mul (.finite (3 / 10))).round 4).toValue)], ?_⟩
    rw [applyRiskHierarchy]
    refine bind_eq_ok.mpr ⟨items, marked, bind_eq_ok.mpr ⟨_, ruled, ?_⟩⟩
    exact bind_eq_ok.mpr ⟨confidence, read, rfl⟩

/-- The check goes against a decision only where the score has the largest weight and is read. -/
theorem icAligns_false {direction : String}
    (against : agent.icAligns direction (icWeights context) decision = .ok false) :
    (icWeights context).truthy = true ∧
      agent.dominantFactor (icWeights context) = some "composite_score" ∧
        ∃ score, agent.icScore decision = .ok score := by
  rw [icAligns] at against
  split at against
  · next weighted =>
      obtain ⟨score, read, -⟩ := bind_eq_ok.mp against
      exact ⟨weighted.1, weighted.2, score, read⟩
  · cases against

/-- A decision is downgraded for its alignment exactly if the score decides, against it. -/
theorem downgradedByIc_iff (long : agent.OpenLong context) {action : String}
    (lowered : lower action = action) :
    agent.DowngradedByIc (withAction decision action) context ↔
      agent.IcDecides decision context ∧
        agent.icAligns action (icWeights context) decision = .ok false := by
  have factors : (withAction decision action).lookup "risk_factors" =
      decision.lookup "risk_factors" := lookup_withAction decision action (by decide)
  have confidences : (withAction decision action).lookup "confidence" =
      decision.lookup "confidence" := lookup_withAction decision action (by decide)
  constructor
  · rintro ⟨ruled, applied⟩
    obtain ⟨drawdown, against⟩ := (riskVerdict_eq_icMisalignment_iff long lowered).mp ruled
    obtain ⟨marked, confidence⟩ := (applyRiskHierarchy_icMisalignment_iff ruled).mp applied
    obtain ⟨weighted, dominant, score⟩ := icAligns_false against
    rw [factors] at marked
    rw [confidences] at confidence
    exact ⟨⟨marked, drawdown, weighted, dominant, score, confidence⟩, against⟩
  · rintro ⟨decides, against⟩
    have ruled := (riskVerdict_eq_icMisalignment_iff long lowered).mpr ⟨decides.drawdown, against⟩
    refine ⟨ruled, (applyRiskHierarchy_icMisalignment_iff ruled).mpr ?_⟩
    rw [factors, confidences]
    exact ⟨decides.riskFactors, decides.confidence⟩

/-! ## Both directions -/

/-- Where the score decides, it goes against one of a sale and a purchase. -/
theorem IcDecides.opposite (decides : agent.IcDecides decision context) :
    agent.icAligns "sell" (icWeights context) decision = .ok false ↔
      ¬agent.icAligns "buy" (icWeights context) decision = .ok false := by
  obtain ⟨score, read⟩ := decides.score
  rw [icAligns_of_dominant decides.weighted decides.dominant read,
    icAligns_of_dominant decides.weighted decides.dominant read]
  cases Number.lt (.finite (5 / 10)) score <;> simp

/-- With an open long, a sale is downgraded when the same purchase is exactly where the composite
score does not decide. -/
theorem exit_like_entry_iff (long : agent.OpenLong context) (decision : Payload) :
    (agent.DowngradedByIc (withAction decision "sell") context ↔
        agent.DowngradedByIc (withAction decision "buy") context) ↔
      ¬agent.IcDecides decision context := by
  have lowered : lower "sell" = "sell" ∧ lower "buy" = "buy" := by decide
  rw [downgradedByIc_iff long lowered.1, downgradedByIc_iff long lowered.2]
  constructor
  · intro alike decides
    have opposite := decides.opposite
    rw [and_iff_right decides, and_iff_right decides, opposite] at alike
    exact iff_not_self alike.symm
  · intro undecided
    exact iff_of_false (fun down => undecided down.1) fun down => undecided down.1

end Agent

/-- An agent whose interpreter reads decimal numbers. -/
def decimalAgent : Agent where
  interpreter := Reference.decimalInterpreter
  within := defaultConstants_within

/-- A position of one unit, and the weights that are written when no factor is left. -/
def longContext : Payload :=
  [("open_position_qty", .float 1), ("ic_weights", .dict [("composite_score", .float 1)])]

theorem openLong_longContext : decimalAgent.OpenLong longContext :=
  ⟨.finite 1, by decide +kernel, by decide +kernel⟩

theorem exit_like_entry_iff_longContext :
    (decimalAgent.DowngradedByIc (Agent.withAction [("confidence", .float (9 / 10))] "sell")
          longContext ↔
        decimalAgent.DowngradedByIc (Agent.withAction [("confidence", .float (9 / 10))] "buy")
          longContext) ↔
      ¬decimalAgent.IcDecides [("confidence", .float (9 / 10))] longContext :=
  Agent.exit_like_entry_iff openLong_longContext _

/-- A sale with a confidence of 0.9 is downgraded, and a purchase is not. -/
theorem confidentSale_downgraded :
    ¬∀ context, decimalAgent.OpenLong context → ∀ decision,
      decimalAgent.DowngradedByIc (Agent.withAction decision "sell") context ↔
        decimalAgent.DowngradedByIc (Agent.withAction decision "buy") context := by
  intro alike
  have same := alike longContext openLong_longContext [("confidence", .float (9 / 10))]
  have decides : decimalAgent.IcDecides [("confidence", .float (9 / 10))] longContext :=
    ⟨⟨[], rfl⟩, ⟨[], rfl, .finite 0, by decide +kernel, by decide +kernel⟩, rfl,
      by decide +kernel, ⟨.finite (9 / 10), by decide +kernel⟩, .finite (9 / 10), by decide +kernel⟩
  have opposite := decides.opposite
  rw [Agent.downgradedByIc_iff openLong_longContext (by decide),
    Agent.downgradedByIc_iff openLong_longContext (by decide), and_iff_right decides,
    and_iff_right decides, opposite] at same
  exact iff_not_self same.symm

end TradingControl.Reasoning
