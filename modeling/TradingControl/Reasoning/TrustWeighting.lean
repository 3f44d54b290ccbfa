import TradingControl.Python.Reference
import TradingControl.Reasoning.ReasoningAgent
import TradingControl.Strategy.ProposalApplier

/-!
# Trust and the scale of the signals

The applier of proposals lowers a scale in Redis and the reasoning agent multiplies its decisions by
it, and by its own trust where that is enabled.  A trust above one lifts a decision above the scale
that the learning loop has set.
-/

namespace TradingControl.Reasoning

open Python

/-! ## The control plane -/

/-- What happens to the two keys: a proposal is delivered to the applier, a trust is written, a key
expires, or a decision reads both. -/
inductive WeightEvent where
  | proposal (delivery : ProposalDelivery)
  | trust (text : String)
  | scaleExpires
  | trustExpires
  | decision

/-- The applier with its controls in Redis, and the text of the trust of the agent. -/
structure WeightPlane where
  applier : ProposalApplier := {}
  agentTrust : Option String := none

namespace WeightPlane

variable (agent : Agent) (settings : ApplierSettings)

/-- The scale that is stored. -/
def stored (plane : WeightPlane) : Option ℚ := plane.applier.controls.signalWeightScale.join

def dropScale (plane : WeightPlane) : WeightPlane :=
  { plane with applier := { plane.applier with
      controls := { plane.applier.controls with signalWeightScale := none } } }

def step (plane : WeightPlane) : WeightEvent → WeightPlane
  | .proposal delivery => { plane with
      applier := (processProposal agent.interpreter.toRuntime settings plane.applier delivery).2 }
  | .trust text => { plane with agentTrust := some text }
  | .scaleExpires => plane.dropScale
  | .trustExpires => { plane with agentTrust := none }
  | .decision => plane

def after (events : List WeightEvent) : WeightPlane := events.foldl (step agent settings) {}

/-- The weight scale of a decision, with the text that a scale is written as. -/
def appliedScale (written : ℚ → String) (plane : WeightPlane) : Number :=
  agent.weightScale (plane.stored.map written) plane.agentTrust

end WeightPlane

/-! ## Reductions -/

/-- What a reduction writes. -/
def reducedScale (scale : Option ℚ) : ℚ :=
  roundHalfEven 6 (max (scale.getD 1 * signalWeightReductionFactor) signalWeightScaleMin)

def scaleAfter : ℕ → ℚ
  | 0 => reducedScale none
  | count + 1 => reducedScale (some (scaleAfter count))

theorem reduceScale_signalWeightScale {fails : ℕ → Bool} {position : ℕ}
    {controls reduced : Controls} (reduces : reduceScale fails position controls = some reduced) :
    reduced.signalWeightScale = some (some (reducedScale controls.signalWeightScale.join)) := by
  rw [reduceScale] at reduces
  split_ifs at reduces
  cases reduces
  rcases controls.signalWeightScale with _ | _ | scale <;> rfl

/-- A proposal leaves the scale alone or reduces it. -/
def ScaleKeptOrReduced (before after : Controls) : Prop :=
  after.signalWeightScale = before.signalWeightScale ∨
    after.signalWeightScale = some (some (reducedScale before.signalWeightScale.join))

theorem scale_runHandler (runtime : Runtime) (settings : ApplierSettings) (type : ProposalType)
    (delivery : ProposalDelivery) (controls : Controls) :
    ScaleKeptOrReduced controls (runHandler runtime settings type delivery controls).2 := by
  have same : ScaleKeptOrReduced controls controls := Or.inl rfl
  cases type with
  | signalWeightReduction =>
      rw [runHandler, applySignalWeightReduction]
      cases reduces : reduceScale delivery.redisFails 0 controls with
      | none => exact same
      | some reduced =>
          have written : ScaleKeptOrReduced controls reduced :=
            Or.inr (reduceScale_signalWeightScale reduces)
          cases delivery.content <;> exact written
  | agentSuspension =>
      rw [runHandler, applyAgentSuspension]
      cases delivery.content with
      | dict content =>
          dsimp only
          split_ifs
          · exact same
          · exact Or.inl rfl
      | _ => exact same
  | agentRetirement =>
      rw [runHandler, applyTradingPause]
      cases delivery.content with
      | dict content =>
          dsimp only
          split_ifs
          · exact same
          · exact Or.inl rfl
          · exact Or.inl rfl
          · split
            · exact Or.inl rfl
            · next reduces =>
                have written := reduceScale_signalWeightScale reduces
                exact Or.inr written
      | _ => exact same
  | _ => exact same

theorem scale_dispatch (runtime : Runtime) (settings : ApplierSettings)
    (delivery : ProposalDelivery) (controls : Controls) :
    ScaleKeptOrReduced controls (dispatch runtime settings delivery controls).2 := by
  have same : ScaleKeptOrReduced controls controls := Or.inl rfl
  rw [dispatch]
  cases delivery.get "proposal_type" with
  | str text =>
      dsimp only
      cases ProposalType.ofText text with
      | none => exact same
      | some type =>
          dsimp only
          split_ifs
          · exact same
          · exact scale_runHandler runtime settings type delivery controls
  | _ => exact same

theorem scale_processProposal (runtime : Runtime) (settings : ApplierSettings)
    (applier : ProposalApplier) (delivery : ProposalDelivery) :
    ScaleKeptOrReduced applier.controls
      (processProposal runtime settings applier delivery).2.controls := by
  rw [processProposal]
  split
  · exact Or.inl rfl
  · exact scale_dispatch runtime settings delivery applier.controls

/-! ## Scales that are written -/

theorem roundHalfEven_idem (places : ℕ) (x : ℚ) :
    roundHalfEven places (roundHalfEven places x) = roundHalfEven places x := by
  rw [roundHalfEven_eq_nearest places x]
  exact roundHalfEven_decimal places _

theorem reducedScale_bounds {scale : Option ℚ} (atMost : scale.getD 1 ≤ 1) :
    1 / 20 ≤ reducedScale scale ∧ reducedScale scale ≤ 7 / 10 := by
  have least : roundHalfEven 6 (1 / 20) = 1 / 20 := by decide +kernel
  have most : roundHalfEven 6 (7 / 10) = 7 / 10 := by decide +kernel
  constructor
  · rw [← least, reducedScale]
    exact roundHalfEven_mono ((by norm_num [signalWeightScaleMin] :
      (1 / 20 : ℚ) ≤ signalWeightScaleMin).trans (le_max_right _ _))
  · rw [← most, reducedScale]
    refine roundHalfEven_mono (max_le ?_ ?_)
    · rw [signalWeightReductionFactor]
      linarith
    · norm_num [signalWeightScaleMin]

theorem scaleAfter_bounds (count : ℕ) : 1 / 20 ≤ scaleAfter count ∧ scaleAfter count ≤ 7 / 10 := by
  induction count with
  | zero => exact reducedScale_bounds le_rfl
  | succ count induction =>
      refine reducedScale_bounds (induction.2.trans ?_)
      norm_num

theorem roundHalfEven_scaleAfter (count : ℕ) :
    roundHalfEven 6 (scaleAfter count) = scaleAfter count := by
  cases count <;> exact roundHalfEven_idem 6 _

/-- A reduction does not raise a scale. -/
theorem scaleAfter_succ_le (count : ℕ) : scaleAfter (count + 1) ≤ scaleAfter count := by
  obtain ⟨least, -⟩ := scaleAfter_bounds count
  rw [← roundHalfEven_scaleAfter count, scaleAfter, reducedScale, roundHalfEven_scaleAfter]
  refine (roundHalfEven_mono (max_le ?_ ?_)).trans (roundHalfEven_scaleAfter count).le
  · rw [Option.getD_some, signalWeightReductionFactor]
    linarith
  · rw [signalWeightScaleMin]
    linarith

/-! ## Planes that are reached -/

/-- The trust in the key is a number within the bounds of a trust. -/
def TrustText (agent : Agent) (text : String) : Prop :=
  ∃ trust, agent.interpreter.parseNumber text = some (.finite trust) ∧
    1 / 2 ≤ trust ∧ trust ≤ 5 / 4

/-- Every trust that is written is within the bounds. -/
def TrustsWithin (agent : Agent) (events : List WeightEvent) : Prop :=
  ∀ text, WeightEvent.trust text ∈ events → TrustText agent text

/-- The scale is missing or one that reductions come to, and a trust is within its bounds. -/
structure Kept (agent : Agent) (plane : WeightPlane) : Prop where
  scale : plane.applier.controls.signalWeightScale = none ∨
    ∃ count, plane.applier.controls.signalWeightScale = some (some (scaleAfter count))
  trust : ∀ text, plane.agentTrust = some text → TrustText agent text

variable {agent : Agent} {settings : ApplierSettings}

theorem Kept.step {plane : WeightPlane} (kept : Kept agent plane) {event : WeightEvent}
    (within : ∀ text, event = .trust text → TrustText agent text) :
    Kept agent (plane.step agent settings event) := by
  cases event with
  | proposal delivery =>
      refine ⟨?_, kept.trust⟩
      rw [WeightPlane.step]
      rcases scale_processProposal agent.interpreter.toRuntime settings plane.applier delivery with
        same | reduced
      · rw [same]
        exact kept.scale
      · rw [reduced]
        rcases kept.scale with missing | ⟨count, stored⟩
        · exact Or.inr ⟨0, by rw [missing]; rfl⟩
        · exact Or.inr ⟨count + 1, by rw [stored]; rfl⟩
  | trust text =>
      refine ⟨kept.scale, fun other same => ?_⟩
      exact Option.some.inj same ▸ within text rfl
  | scaleExpires => exact ⟨Or.inl rfl, kept.trust⟩
  | trustExpires => exact ⟨kept.scale, fun text absent => by cases absent⟩
  | decision => exact kept

theorem kept_after {events : List WeightEvent} (within : TrustsWithin agent events) :
    Kept agent (WeightPlane.after agent settings events) := by
  induction events using List.reverseRecOn with
  | nil => exact ⟨Or.inl rfl, fun text absent => by cases absent⟩
  | append_singleton events event induction =>
      rw [WeightPlane.after, List.foldl_append]
      refine (induction fun text member => within text (List.mem_append_left _ member)).step ?_
      rintro text rfl
      exact within text (List.mem_append_right _ (List.mem_singleton_self _))

/-! ## Scales that are applied -/

/-- What a decision is multiplied by, given the scale and the trust that it reads. -/
def influence (enabled : Bool) (scale trust : ℚ) : ℚ :=
  if enabled then min (scale * trust) (5 / 4) else scale

theorem influence_mono (enabled : Bool) {low high trust : ℚ} (order : low ≤ high)
    (nonneg : 0 ≤ trust) : influence enabled low trust ≤ influence enabled high trust := by
  rw [influence, influence]
  split_ifs
  · exact min_le_min_right _ (mul_le_mul_of_nonneg_right order nonneg)
  · exact order

theorem influence_pos (enabled : Bool) {scale trust : ℚ} (positive : 0 < scale)
    (trusted : 0 < trust) : 0 < influence enabled scale trust := by
  rw [influence]
  split_ifs
  · exact lt_min (mul_pos positive trusted) (by norm_num)
  · exact positive

/-- A trust above one lifts a decision above its scale. -/
theorem influence_le_iff (enabled : Bool) {scale trust : ℚ} (positive : 0 < scale)
    (atMost : scale ≤ 1) :
    influence enabled scale trust ≤ scale ↔ enabled = false ∨ trust ≤ 1 := by
  have capped : ¬(5 / 4 : ℚ) ≤ scale := by linarith
  cases enabled with
  | false => exact iff_of_true le_rfl (Or.inl rfl)
  | true =>
      rw [influence, if_pos rfl, min_le_iff, or_iff_left capped, mul_le_iff_le_one_right positive]
      simp

section

variable {written : ℚ → String} {plane : WeightPlane}

/-- Texts of the scales that reductions come to are read back. -/
def ScalesRead (agent : Agent) (written : ℚ → String) : Prop :=
  ∀ count, agent.interpreter.parseNumber (written (scaleAfter count)) =
    some (.finite (scaleAfter count))

theorem Kept.stored (kept : Kept agent plane) :
    plane.stored = none ∨ ∃ count, plane.stored = some (scaleAfter count) := by
  rw [WeightPlane.stored]
  rcases kept.scale with missing | ⟨count, held⟩
  · exact Or.inl (by rw [missing]; rfl)
  · exact Or.inr ⟨count, by rw [held]; rfl⟩

theorem signalWeightScale_written (reads : ScalesRead agent written) {scale : Option ℚ}
    (held : scale = none ∨ ∃ count, scale = some (scaleAfter count)) :
    agent.signalWeightScale (scale.map written) = .finite (scale.getD 1) := by
  rcases held with rfl | ⟨count, rfl⟩
  · rfl
  · obtain ⟨least, most⟩ := scaleAfter_bounds count
    rw [Option.map_some, Agent.signalWeightScale, Option.bind_some, reads]
    have positive : ¬scaleAfter count ≤ 0 := by linarith
    have atMost : ¬1 < scaleAfter count := by linarith
    simp [positive, atMost]

theorem Kept.agentTrust (kept : Kept agent plane) : ∃ trust,
    agent.agentTrust plane.agentTrust = .finite trust ∧ 1 / 2 ≤ trust ∧ trust ≤ 5 / 4 := by
  cases held : plane.agentTrust with
  | none => exact ⟨1, rfl, by norm_num, by norm_num⟩
  | some text =>
      obtain ⟨trust, read, least, most⟩ := kept.trust text held
      refine ⟨trust, ?_, least, most⟩
      have low : ¬trust < 5 / 10 := by linarith
      have high : ¬(125 / 100 : ℚ) < trust := by linarith
      rw [Agent.agentTrust, Option.bind_some, read]
      simp [Number.max, Number.min, low, high]

theorem Kept.appliedScale (kept : Kept agent plane) (reads : ScalesRead agent written) {trust : ℚ}
    (read : agent.agentTrust plane.agentTrust = .finite trust) :
    plane.appliedScale agent written = .finite
      (influence agent.settings.trustWeightingEnabled (plane.stored.getD 1) trust) := by
  rw [WeightPlane.appliedScale, Agent.weightScale, signalWeightScale_written reads kept.stored,
    read, influence]
  split_ifs
  · rw [Agent.applyTrustWeighting, Number.mul_finite, Number.min, Number.lt_finite]
    split_ifs with capped
    · rw [min_eq_right (by linarith [of_decide_eq_true capped])]
      norm_num
    · rw [min_eq_left (by
        have below := of_decide_eq_false (Bool.eq_false_iff.mpr capped)
        linarith)]
  · rfl

/-- The dampening of the learning loop: a decision is scaled by something positive, by no more than
the scale that is stored, and no proposal that comes next makes it more. -/
def DampeningKept (agent : Agent) (settings : ApplierSettings) (written : ℚ → String)
    (plane : WeightPlane) : Prop :=
  ∃ applied, plane.appliedScale agent written = .finite applied ∧ 0 < applied ∧
    (∀ stored, plane.stored = some stored → applied ≤ stored) ∧
      ∀ delivery, ∃ next, (plane.step agent settings (.proposal delivery)).appliedScale agent
        written = .finite next ∧ next ≤ applied

/-- Nothing is stored, trust does not count, or it is at most one. -/
def TrustHeld (agent : Agent) (plane : WeightPlane) : Prop :=
  plane.stored = none ∨ agent.settings.trustWeightingEnabled = false ∨
    (agent.agentTrust plane.agentTrust).le (.finite 1) = true

/-- What a decision reads as the scale is positive and at most one. -/
theorem Kept.stored_bounds (kept : Kept agent plane) :
    0 < plane.stored.getD 1 ∧ plane.stored.getD 1 ≤ 1 := by
  rcases kept.stored with missing | ⟨count, held⟩
  · rw [missing]
    exact ⟨one_pos, le_rfl⟩
  · obtain ⟨least, most⟩ := scaleAfter_bounds count
    rw [held, Option.getD_some]
    constructor <;> linarith

/-- A proposal does not raise the scale. -/
theorem Kept.stored_proposal_le (kept : Kept agent plane) (settings : ApplierSettings)
    (delivery : ProposalDelivery) :
    (plane.step agent settings (.proposal delivery)).stored.getD 1 ≤ plane.stored.getD 1 := by
  rw [WeightPlane.step, WeightPlane.stored]
  rcases scale_processProposal agent.interpreter.toRuntime settings plane.applier delivery with
    same | reduced
  · rw [same]
    exact le_rfl
  · rw [reduced]
    change reducedScale plane.stored ≤ plane.stored.getD 1
    rcases kept.stored with missing | ⟨count, held⟩
    · rw [missing]
      exact (reducedScale_bounds le_rfl).2.trans (by norm_num)
    · rw [held]
      exact scaleAfter_succ_le count

/-- On a plane that is reached the dampening is kept exactly if trust is held. -/
theorem Kept.dampened_iff (kept : Kept agent plane) (reads : ScalesRead agent written) :
    DampeningKept agent settings written plane ↔ TrustHeld agent plane := by
  obtain ⟨trust, read, least, most⟩ := kept.agentTrust
  have trusted : 0 < trust := by linarith
  obtain ⟨positive, atMost⟩ := kept.stored_bounds
  rw [TrustHeld, read, Number.le_finite, decide_eq_true_eq,
    ← influence_le_iff agent.settings.trustWeightingEnabled positive atMost]
  constructor
  · rintro ⟨applied, same, -, bounded, -⟩
    rw [kept.appliedScale reads read] at same
    cases same
    cases held : plane.stored with
    | none => exact Or.inl rfl
    | some stored =>
        rw [held] at bounded
        exact Or.inr (bounded stored rfl)
  · intro dampened
    refine ⟨_, kept.appliedScale reads read, influence_pos _ positive trusted, ?_, ?_⟩
    · intro stored held
      rcases dampened with missing | bounded
      · cases missing.symm.trans held
      · rwa [held] at bounded ⊢
    · intro delivery
      have next : Kept agent (plane.step agent settings (.proposal delivery)) :=
        kept.step fun text same => by cases same
      exact ⟨_, next.appliedScale reads read,
        influence_mono _ (kept.stored_proposal_le settings delivery) trusted.le⟩

end

def trustingAgent : Agent where
  interpreter := Reference.decimalInterpreter
  settings := { trustWeightingEnabled := true }
  within := defaultConstants_within

theorem scaleAfter_of_le (count : ℕ) : scaleAfter (count + 8) = 1 / 20 := by
  induction count with
  | zero => decide +kernel
  | succ count induction =>
      rw [Nat.succ_add, scaleAfter, induction]
      decide +kernel

theorem scalesRead_trustingAgent : ScalesRead trustingAgent (Reference.fixed 6) := by
  intro count
  have few : ∀ count < 8, trustingAgent.interpreter.parseNumber
      (Reference.fixed 6 (scaleAfter count)) = some (.finite (scaleAfter count)) := by
    decide +kernel
  rcases lt_or_ge count 8 with less | more
  · exact few count less
  · obtain ⟨rest, rfl⟩ := Nat.exists_eq_add_of_le' more
    rw [scaleAfter_of_le]
    decide +kernel

/-- A proposal to reduce the weight of the signals, the trust of a promoted agent, and a
decision. -/
def promotedAfterReduction (trust : String) : List WeightEvent :=
  [.proposal { data := [("msg_id", .str "proposal-1"),
      ("proposal_type", .str "signal_weight_reduction"),
      ("content", .dict [("reason", .str "Grade C")])] }, .trust trust, .decision]

theorem trustsWithin_promotedAfterReduction {trust : String}
    (within : TrustText trustingAgent trust) :
    TrustsWithin trustingAgent (promotedAfterReduction trust) := by
  intro text member
  simp only [promotedAfterReduction, List.mem_cons, reduceCtorEq, WeightEvent.trust.injEq,
    List.not_mem_nil, or_false, false_or] at member
  exact member ▸ within

end TradingControl.Reasoning
