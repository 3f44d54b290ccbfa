import TradingControl.Effects.SeenLog
import TradingControl.Python.Dict
import TradingControl.Python.Runtime

/-!
# Proposal applier

The applier reads proposals from a stream that may deliver them again.  It puts the identity of a
delivery on record, holds back what needs approval, and runs the handler of the type, whose
exceptions it swallows.
-/

namespace TradingControl

open Python

/-! ## Messages -/

/-- `ProposalType`. -/
inductive ProposalType where
  | parameterChange
  | codeChange
  | regimeAdjustment
  | signalWeightReduction
  | agentSuspension
  | agentRetirement
  | newAgent
  | toolGovernance
  | promptEvolution
  | challengerPromotion
deriving DecidableEq, Repr

def ProposalType.ofText : String → Option ProposalType
  | "parameter_change" => some .parameterChange
  | "code_change" => some .codeChange
  | "regime_adjustment" => some .regimeAdjustment
  | "signal_weight_reduction" => some .signalWeightReduction
  | "agent_suspension" => some .agentSuspension
  | "agent_retirement" => some .agentRetirement
  | "new_agent" => some .newAgent
  | "tool_governance" => some .toolGovernance
  | "prompt_evolution" => some .promptEvolution
  | "challenger_promotion" => some .challengerPromotion
  | _ => none

/-- `proposal_type in APPROVAL_GATED_PROPOSAL_TYPES`. -/
def ProposalType.gated (type : ProposalType) : Bool := type = .challengerPromotion

/-- What a handler comes to. -/
inductive HandlerReply where
  | applied
  /-- It returned `None`. -/
  | declined
  | raised
deriving DecidableEq, Repr

/-- One delivery of a message, with what its handler meets. -/
structure ProposalDelivery where
  data : Dict String Value
  /-- The trace id made up for a message without one. -/
  madeUpTraceId : String := ""
  /-- Whether the calls of the handler to Redis fail, by position. -/
  redisFails : ℕ → Bool := fun _ => false
  /-- What a handler comes to that works on stores, agents, tools or pull requests. -/
  reply : HandlerReply := .applied

namespace ProposalDelivery

/-- `data.get(key)`. -/
def get (delivery : ProposalDelivery) (key : String) : Value :=
  (delivery.data.lookup key).getD .none

/-- `data.get("content") or {}`. -/
def content (delivery : ProposalDelivery) : Value :=
  if (delivery.get "content").truthy then delivery.get "content" else .dict []

def approved (delivery : ProposalDelivery) : Bool := (delivery.get "approved").truthy

variable (runtime : Runtime)

/-- `data.get("trace_id") or f"applier_{...}"`, as a text. -/
def traceId (delivery : ProposalDelivery) : String :=
  if (delivery.get "trace_id").truthy then runtime.str (delivery.get "trace_id")
  else delivery.madeUpTraceId

/-- The key under which a delivery goes on record. -/
def key (delivery : ProposalDelivery) : String :=
  let identity :=
    if (delivery.get "msg_id").truthy then runtime.str (delivery.get "msg_id")
    else runtime.str (delivery.get "proposal_type") ++ ":" ++ delivery.traceId runtime
  identity ++ "|approved=" ++ if delivery.approved then "True" else "False"

end ProposalDelivery

/-! ## Handlers -/

/-- The control plane in Redis. -/
structure Controls where
  /-- The text of `learning:signal_weight_scale`, by the number in it, if any. -/
  signalWeightScale : Option (Option ℚ) := none
  /-- Agents with a `learning:agent_suspended` key. -/
  suspended : List String := []
  tradingPaused : Bool := false
  pauseReason : Option String := none

/-- `SIGNAL_WEIGHT_REDUCTION_FACTOR`. -/
def signalWeightReductionFactor : ℚ := 7 / 10

/-- `SIGNAL_WEIGHT_SCALE_MIN`. -/
def signalWeightScaleMin : ℚ := 5 / 100

structure ApplierSettings where
  /-- `ALPACA_PAPER`. -/
  alpacaPaper : Bool := true
  /-- `CHALLENGER_PROMOTION_AUTO_APPLY`. -/
  challengerPromotionAutoApply : Bool := true

/-- Read the scale and write the reduced one, from a call of Redis on. -/
def reduceScale (fails : ℕ → Bool) (position : ℕ) (controls : Controls) : Option Controls :=
  if fails position || fails (position + 1) then none
  else
    let current := match controls.signalWeightScale with
      | some (some scale) => scale
      | _ => 1
    some { controls with
      signalWeightScale := some (some (roundHalfEven 6
        (max (current * signalWeightReductionFactor) signalWeightScaleMin))) }

/-- `_apply_signal_weight_reduction`: the content is read last. -/
def applySignalWeightReduction (delivery : ProposalDelivery) (controls : Controls) :
    HandlerReply × Controls :=
  match reduceScale delivery.redisFails 0 controls with
  | none => (.raised, controls)
  | some reduced =>
      match delivery.content with
      | .dict _ => (.applied, reduced)
      | _ => (.raised, reduced)

def firstTrue (content : Dict String Value) (keys : List String) : Option Value :=
  (keys.filterMap fun key => content.lookup key).find? Value.truthy

/-- `_apply_agent_suspension`. -/
def applyAgentSuspension (runtime : Runtime) (delivery : ProposalDelivery) (controls : Controls) :
    HandlerReply × Controls :=
  match delivery.content with
  | .dict content =>
      if delivery.redisFails 0 then (.raised, controls)
      else
        let name := ((firstTrue content ["agent_name", "agent", "target_agent"]).map
          runtime.str).getD "REASONING_AGENT"
        (.applied, { controls with suspended := controls.suspended ++ [name] })
  | _ => (.raised, controls)

/-- `_apply_trading_pause`. -/
def applyTradingPause (runtime : Runtime) (settings : ApplierSettings)
    (delivery : ProposalDelivery) (controls : Controls) : HandlerReply × Controls :=
  match delivery.content with
  | .dict content =>
      if delivery.redisFails 0 then (.raised, controls)
      else
        let paused := { controls with tradingPaused := true }
        if delivery.redisFails 1 then (.raised, paused)
        else
          let reason := ((firstTrue content ["reason"]).map runtime.str).getD
            "grade F retirement proposal"
          let explained := { paused with pauseReason := some reason }
          if !settings.alpacaPaper then (.applied, explained)
          else
            match reduceScale delivery.redisFails 2 explained with
            | none => (.raised, explained)
            | some reduced => (.applied, reduced)
  | _ => (.raised, controls)

/-- `self._handlers[proposal_type]`. -/
def runHandler (runtime : Runtime) (settings : ApplierSettings) (type : ProposalType)
    (delivery : ProposalDelivery) (controls : Controls) : HandlerReply × Controls :=
  match type with
  | .signalWeightReduction => applySignalWeightReduction delivery controls
  | .agentSuspension => applyAgentSuspension runtime delivery controls
  | .agentRetirement => applyTradingPause runtime settings delivery controls
  | _ => (delivery.reply, controls)

/-! ## Processing -/

structure ProposalApplier where
  appliedKeys : List String := []
  appliedCount : ℕ := 0
  controls : Controls := {}

/-- How a delivery ends. -/
inductive ApplierOutcome where
  | duplicate
  | pendingApproval
  | unknownType
  /-- The type is no text and raises where it is looked up. -/
  | typeError
  | ran (reply : HandlerReply)
deriving DecidableEq, Repr

def appliedKeysCap : ℕ := 1000

/-- `process` after its duplicate check. -/
def dispatch (runtime : Runtime) (settings : ApplierSettings) (delivery : ProposalDelivery)
    (controls : Controls) : ApplierOutcome × Controls :=
  match delivery.get "proposal_type" with
  | .list _ | .dict _ => (.typeError, controls)
  | .str text =>
      match ProposalType.ofText text with
      | none => (.unknownType, controls)
      | some type =>
          if type.gated && !delivery.approved && !settings.challengerPromotionAutoApply then
            (.pendingApproval, controls)
          else
            let (reply, after) := runHandler runtime settings type delivery controls
            (.ran reply, after)
  | _ => (.unknownType, controls)

/-- `process`. -/
def processProposal (runtime : Runtime) (settings : ApplierSettings) (applier : ProposalApplier)
    (delivery : ProposalDelivery) : ApplierOutcome × ProposalApplier :=
  let key := delivery.key runtime
  -- `_already_applied` puts the key on record before anything is applied
  if key ∈ applier.appliedKeys then (.duplicate, applier)
  else
    let (outcome, controls) := dispatch runtime settings delivery applier.controls
    (outcome,
      { appliedKeys := SeenLog.record appliedKeysCap applier.appliedKeys key
        appliedCount := applier.appliedCount + if outcome = .ran .applied then 1 else 0
        controls := controls })

def processAll (runtime : Runtime) (settings : ApplierSettings)
    (deliveries : List ProposalDelivery) : ProposalApplier :=
  deliveries.foldl (fun applier delivery =>
    (processProposal runtime settings applier delivery).2) {}

end TradingControl
