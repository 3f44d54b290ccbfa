import TradingControl.Execution.FallbackGuard
import TradingControl.Reasoning.Sanitized

/-!
# The mark of a fallback decision

The agent marks a fallback in its summary, but of the marks only the primary edge is published.
The engine knows a fallback by a primary edge that starts with `fallback:`, which hybrid mode does
not write.
-/

namespace TradingControl.Reasoning

open Python Effects

/-! ## A published decision at the engine -/

/-- `str(payload.get(key) or "")`, where it is not empty. -/
def textField (interpreter : Interpreter) (payload : Payload) (key : String) : Option String :=
  match payload.lookup key with
  | some value => if value.truthy then some (interpreter.str value) else none
  | none => none

/-- A field that holds a truth value. -/
def flagField (payload : Payload) (key : String) : Option Bool :=
  match payload.lookup key with
  | some (.bool value) => some value
  | _ => none

/-- The engine reads the action and the marks of a fallback off the payload. -/
structure Carries (interpreter : Interpreter) (payload : Payload) (data : Decision) : Prop where
  action : data.action = textField interpreter payload "action"
  side : data.side = textField interpreter payload "side"
  reason : data.reason = textField interpreter payload "reason"
  source : data.source = textField interpreter payload "source"
  primaryEdge : data.primaryEdge = textField interpreter payload "primary_edge"
  llmSucceeded : data.llmSucceeded = flagField payload "llm_succeeded"
  fallbackReason : data.fallbackReason = textField interpreter payload "fallback_reason"

/-- The payload says to buy or to sell. -/
def Trading (payload : Payload) : Prop :=
  payload.lookup "action" = some (.str "buy") ∨ payload.lookup "action" = some (.str "sell")

namespace Agent

variable {agent : Agent}

theorem decisionPayload_marks {data context summary payload : Payload} {traceId : String}
    {costUsd weightScale : Number} {occasion : Occasion}
    (published : agent.decisionPayload data context summary traceId costUsd weightScale occasion =
      .ok payload) :
    payload.lookup "source" = some (.str "reasoning_agent") ∧
      payload.lookup "primary_edge" = some ((summary.lookup "primary_edge").getD (.str "")) ∧
      payload.lookup "reason" = none ∧ payload.lookup "side" = none ∧
      payload.lookup "llm_succeeded" = none ∧ payload.lookup "fallback_reason" = none := by
  simp only [decisionPayload, bind_eq_ok] at published
  obtain ⟨_, -, _, -, _, -, _, -, _, -, _, -, _, -, _, -, built⟩ := published
  cases built
  exact ⟨rfl, rfl, rfl, rfl, rfl, rfl⟩

/-- Primary edge of a decision that no model could make. -/
def fallbackEdge (settings : AgentSettings) (reason : String) : String :=
  if settings.decisionMode = "hybrid" then "hybrid_fallback:" ++ reason
  else "fallback:" ++ settings.llmFallbackMode

theorem policyFallback_edge {data context summary : Payload} {traceId reason edge : String}
    (decided : agent.policyFallback data context traceId reason edge = .ok summary) :
    summary.lookup "primary_edge" = some (.str edge) := by
  simp only [policyFallback, bind_eq_ok] at decided
  obtain ⟨decision, -, riskFactors, -, built⟩ := decided
  cases built
  simp [update, provenance, Dict.lookup_set]

theorem degrade_edge {data context summary : Payload} {traceId reason : String} {reflection : Value}
    (degraded : agent.degrade data context traceId reason reflection = .ok summary) :
    summary.lookup "primary_edge" = some (.str (fallbackEdge agent.settings reason)) := by
  rw [degrade] at degraded
  rw [fallbackEdge]
  split_ifs at degraded ⊢ with hybrid
  · exact policyFallback_edge degraded
  · rw [applyFallback] at degraded
    split_ifs at degraded with localPolicy
    · rw [policyFallback_edge degraded, localPolicy]
      rfl
    · simp only [bind_eq_ok] at degraded
      obtain ⟨_, -, _, -, _, -, _, -, _, -, built⟩ := degraded
      cases built
      rfl

theorem degraded_edge {data context : Payload} {traceId reason : String} {reflection : Value}
    {produced : Produced}
    (degraded : agent.degraded data context traceId reason reflection = .ok produced) :
    produced.fallbackReason = some reason ∧ produced.summary.lookup "primary_edge" =
      some (.str (fallbackEdge agent.settings reason)) := by
  simp only [Agent.degraded, bind_eq_ok] at degraded
  obtain ⟨summary, decided, built⟩ := degraded
  cases built
  exact ⟨rfl, degrade_edge decided⟩

/-- Every decision with a fallback reason has the fallback's primary edge. -/
theorem produced_edge {data : Payload} {occasion : Occasion} {produced : Produced} {reason : String}
    (routed : agent.produced data occasion = .ok produced)
    (fallback : produced.fallbackReason = some reason) :
    produced.summary.lookup "primary_edge" =
      some (.str (fallbackEdge agent.settings reason)) := by
  have same : ∀ other, agent.degraded data occasion.context (agent.traceIdOf data occasion) other
      occasion.reflection = .ok produced → produced.summary.lookup "primary_edge" =
        some (.str (fallbackEdge agent.settings reason)) := by
    intro other degraded
    obtain ⟨found, edge⟩ := degraded_edge degraded
    obtain rfl : other = reason := Option.some.inj (found.symm.trans fallback)
    exact edge
  simp only [Agent.produced, produceDecision] at routed
  split_ifs at routed with policy exhausted
  · simp only [bind_eq_ok] at routed
    obtain ⟨decision, -, built⟩ := routed
    cases built
    cases fallback
  · exact same _ routed
  · cases call : occasion.call with
    | timedOut =>
        rw [call] at routed
        exact same _ routed
    | raised error =>
        rw [call] at routed
        exact same _ routed
    | answered completion costUsd modelLabel =>
        simp only [call] at routed
        cases read : agent.readReply completion with
        | ok reply =>
            simp only [read] at routed
            cases routed
            cases fallback
        | error error =>
            simp only [read] at routed
            exact same _ routed

theorem process_edge {data payload : Payload} {occasion : Occasion} {produced : Produced}
    {reason : String} (routed : agent.produced data occasion = .ok produced)
    (fallback : produced.fallbackReason = some reason)
    (published : agent.process data occasion = .ok payload) :
    payload.lookup "primary_edge" = some (.str (fallbackEdge agent.settings reason)) ∧
      payload.lookup "source" = some (.str "reasoning_agent") ∧
      payload.lookup "reason" = none ∧ payload.lookup "side" = none ∧
      payload.lookup "llm_succeeded" = none ∧ payload.lookup "fallback_reason" = none := by
  simp only [process, routed, bind_eq_ok, Except.ok.injEq, exists_eq_left'] at published
  obtain ⟨⟨decision, total⟩, heard, summary, judged, published⟩ := published
  obtain ⟨source, edge, rest⟩ := decisionPayload_marks published
  -- a fallback is never criticised
  have kept : decision = produced.summary := by
    simp only [reviewed, bind_eq_ok] at heard
    obtain ⟨confidence, -, heard⟩ := heard
    rw [if_neg (by simp [critiqued, fallback])] at heard
    cases heard
    rfl
  obtain ⟨-, -, -, -, -, -, edgeField⟩ := applyRiskHierarchy_ok judged
  rw [Dict.lookup_set, if_neg (by decide), edgeField, kept, produced_edge routed fallback] at edge
  exact ⟨edge, source, rest⟩

/-! ## Recognition -/

theorem toList_lower_append (first second : String) :
    (lower (first ++ second)).toList = first.toList.map Char.toLower ++ (lower second).toList := by
  simp [lower]

/-- The engine's patterns on the primary edge miss exactly the edge of hybrid mode. -/
theorem edge_recognised_iff (settings : AgentSettings) (reason : String) :
    (startsWith (lower (fallbackEdge settings reason)) "fallback:" = true ∨
        lower (fallbackEdge settings reason) = "fallback") ↔ settings.decisionMode ≠ "hybrid" := by
  rw [fallbackEdge]
  split_ifs with hybrid
  · have letters := toList_lower_append "hybrid_fallback:" reason
    constructor
    · rintro (starts | same)
      · rw [startsWith, letters] at starts
        cases starts
      · rw [same] at letters
        cases letters
    · exact fun other => absurd hybrid other
  · refine ⟨fun _ => hybrid, fun _ => Or.inl ?_⟩
    rw [startsWith, toList_lower_append]
    rfl

/-- A carried fallback decision is recognised outside hybrid mode. -/
theorem isFallback_iff {interpreter : Interpreter} {payload : Payload} {decision : Decision}
    {settings : AgentSettings} {reason : String} (carried : Carries interpreter payload decision)
    (edge : payload.lookup "primary_edge" = some (.str (fallbackEdge settings reason)))
    (source : payload.lookup "source" = some (.str "reasoning_agent"))
    (unmarked : payload.lookup "reason" = none ∧ payload.lookup "llm_succeeded" = none ∧
      payload.lookup "fallback_reason" = none) :
    decision.isFallback = true ↔ settings.decisionMode ≠ "hybrid" := by
  rw [← edge_recognised_iff settings reason]
  have notEmpty : fallbackEdge settings reason ≠ "" := by
    rw [fallbackEdge]
    split_ifs
    · intro empty
      have letters := congrArg String.toList empty
      simp at letters
    · intro empty
      have letters := congrArg String.toList empty
      simp at letters
  have edgeRead : decision.primaryEdge = some (fallbackEdge settings reason) := by
    rw [carried.primaryEdge, textField, edge]
    simp [Value.truthy, notEmpty, Runtime.str]
  have sourceRead : decision.source = some "reasoning_agent" := by
    rw [carried.source, textField, source]
    simp [Value.truthy, Runtime.str]
  have reasonRead : decision.reason = none := by
    rw [carried.reason, textField, unmarked.1]
  have succeededRead : decision.llmSucceeded = none := by
    rw [carried.llmSucceeded, flagField, unmarked.2.1]
  have fallbackRead : decision.fallbackReason = none := by
    rw [carried.fallbackReason, textField, unmarked.2.2]
  have sourceLower : lower "reasoning_agent" = "reasoning_agent" := by decide
  have noReason : contains (lower "") "fallback" = false := by decide
  simp [Decision.isFallback, edgeRead, sourceRead, reasonRead, succeededRead, fallbackRead,
    orDefault, notEmpty, sourceLower, noReason]

/-- A decision that no model could make is recognised, and kept from the broker of a live engine
that forbids such trades, in every mode but hybrid. -/
theorem fallback_blocked_iff (agent : Agent) (data : Payload) (occasion : Occasion)
    {produced : Produced} {reason : String} {payload : Payload} {decision : Decision}
    (routed : agent.produced data occasion = .ok produced)
    (fallback : produced.fallbackReason = some reason)
    (published : agent.process data occasion = .ok payload) (trading : Trading payload)
    (carried : Carries agent.interpreter payload decision) :
    (decision.isFallback = true ∧ ∀ (config : Config) (world : World) (choices : ℕ → Choice),
        config.settings.simulated = false → config.settings.allowFallbackTrades = false →
          Untouched world (deliver config world ⟨decision, choices⟩)) ↔
      agent.settings.decisionMode ≠ "hybrid" := by
  obtain ⟨edge, source, noReason, noSide, unmarked⟩ := process_edge routed fallback published
  rw [← isFallback_iff carried edge source ⟨noReason, unmarked⟩]
  refine ⟨And.left, fun flagged => ⟨flagged, fun config world choices live forbidden => ?_⟩⟩
  apply deliver_fallback_blocked config world ⟨decision, choices⟩ live forbidden flagged
  have sideRead : decision.side = none := by
    rw [carried.side, textField, noSide]
  rcases trading with buy | sell
  · have actionRead : decision.action = some "buy" := by
      rw [carried.action, textField, buy]
      simp [Value.truthy, Runtime.str]
    left
    simp only [Decision.sideOrAction, actionRead, sideRead]
    decide
  · have actionRead : decision.action = some "sell" := by
      rw [carried.action, textField, sell]
      simp [Value.truthy, Runtime.str]
    right
    simp only [Decision.sideOrAction, actionRead, sideRead]
    decide

/-! ## A bullish signal while the model times out -/

def bullishSignal : Payload := ("direction", .str "bullish") :: bitcoinSignal

/-- The model does not answer in time. -/
def timedOutOccasion : Occasion where
  call := .timedOut

def agentIn (decisionMode llmFallbackMode : String) : Agent :=
  { plainAgent with settings := { decisionMode, llmFallbackMode } }

/-- The published decision as the engine reads it. -/
def timedOutDecision (primaryEdge : String) : Decision :=
  { bitcoinDecision "buy" with
    source := some "reasoning_agent"
    primaryEdge := some primaryEdge
    modelUsed := some "fallback"
    signalConfidence := .number (8 / 10)
    reasoningScore := .number (8 / 10)
    sizePct := .number (15 / 1000) }

/-- A live engine that forbids fallback trades. -/
def strictConfig : Config where
  settings := { brokerMode := "live", alpacaPaper := false }

/-- The decision of a process that ends, and what the engine reads of it. -/
theorem process_timedOut {agent : Agent} {edge : String}
    (ends : (agent.process bullishSignal timedOutOccasion).toOption.map (fun payload =>
      (["action", "side", "reason", "source", "primary_edge", "fallback_reason"].map
          (textField agent.interpreter payload), flagField payload "llm_succeeded")) =
      some ([some "buy", none, none, some "reasoning_agent", some edge, none], none))
    (buys : ((agent.process bullishSignal timedOutOccasion).toOption.bind
      (·.lookup "action")).any (Value.isText "buy") = true) :
    ∃ payload, agent.process bullishSignal timedOutOccasion = .ok payload ∧ Trading payload ∧
      Carries agent.interpreter payload (timedOutDecision edge) := by
  cases outcome : agent.process bullishSignal timedOutOccasion with
  | error error => simp [outcome, Except.toOption] at ends
  | ok payload =>
      rw [outcome] at ends buys
      simp only [Except.toOption, Option.map_some, List.map_cons, List.map_nil, Option.some.injEq,
        Prod.mk.injEq, List.cons.injEq, and_true] at ends
      obtain ⟨⟨action, side, reason, source, primaryEdge, fallbackReason⟩, succeeded⟩ := ends
      refine ⟨payload, rfl, Or.inl ?_, action.symm, side.symm, reason.symm, source.symm,
        primaryEdge.symm, succeeded.symm, fallbackReason.symm⟩
      change (payload.lookup "action").any (Value.isText "buy") = true at buys
      obtain ⟨value, held, isBuy⟩ := (Option.any_eq_true _ _).mp buys
      cases value with
      | str text =>
          rw [held, (by simpa [Value.isText] using isBuy : text = "buy")]
      | _ => cases isBuy

theorem skipReasoning_blocked :
    ∃ payload,
      (agentIn "llm" "skip_reasoning").process bullishSignal timedOutOccasion = .ok payload ∧
      (((timedOutDecision "fallback:skip_reasoning").isFallback = true ∧
        ∀ (config : Config) (world : World) (choices : ℕ → Choice),
          config.settings.simulated = false → config.settings.allowFallbackTrades = false →
            Untouched world
              (deliver config world ⟨timedOutDecision "fallback:skip_reasoning", choices⟩)) ↔
        (agentIn "llm" "skip_reasoning").settings.decisionMode ≠ "hybrid") := by
  obtain ⟨payload, published, trading, carried⟩ :=
    @process_timedOut (agentIn "llm" "skip_reasoning") "fallback:skip_reasoning"
      (by decide +kernel) (by decide +kernel)
  have fallback : ((agentIn "llm" "skip_reasoning").produced bullishSignal
      timedOutOccasion).toOption.map (·.fallbackReason) = some (some "llm_timeout") := by
    decide +kernel
  cases routed : (agentIn "llm" "skip_reasoning").produced bullishSignal timedOutOccasion with
  | error error => simp [routed, Except.toOption] at fallback
  | ok produced =>
      rw [routed] at fallback
      exact ⟨payload, published, fallback_blocked_iff (agentIn "llm" "skip_reasoning")
        bullishSignal timedOutOccasion routed (Option.some.inj fallback) published trading carried⟩

/-- In hybrid mode the policy's buy is no fallback to a live engine, which places it. -/
theorem hybrid_reaches_broker :
    ∃ payload,
      (agentIn "hybrid" "reject_signal").process bullishSignal timedOutOccasion = .ok payload ∧
      Trading payload ∧
      Carries Reference.decimalInterpreter payload
        (timedOutDecision "hybrid_fallback:llm_timeout") ∧
      (timedOutDecision "hybrid_fallback:llm_timeout").isFallback = false ∧
      (deliver strictConfig freshWorld
        (calmDelivery (timedOutDecision "hybrid_fallback:llm_timeout"))).submitted ≠
          freshWorld.submitted := by
  obtain ⟨payload, published, trading, carried⟩ :=
    @process_timedOut (agentIn "hybrid" "reject_signal") "hybrid_fallback:llm_timeout"
      (by decide +kernel) (by decide +kernel)
  exact ⟨payload, published, trading, carried, by decide +kernel, by decide +kernel⟩

end Agent

end TradingControl.Reasoning
