import TradingControl.Cognitive.AttributionTotals

/-!
# Proposals

The proposal agent turns the strongest observation into a typed candidate change.  The governor
refuses noisy and repeated candidates, and the queue keeps the fate of each one.
-/

namespace TradingControl.Cognitive

open Python

/-! ## Proposals -/

/-- `ProposalStatus`. -/
inductive ProposalStatus where
  | generated
  | backtesting
  | awaitingReview
  | approved
  | rejected
  | merged
  | blocked
deriving DecidableEq, Repr

/-- `status.value`. -/
def ProposalStatus.value : ProposalStatus → String
  | .generated => "generated"
  | .backtesting => "backtesting"
  | .awaitingReview => "awaiting_review"
  | .approved => "approved"
  | .rejected => "rejected"
  | .merged => "merged"
  | .blocked => "blocked"

structure Proposal where
  proposalId : String
  proposalType : String
  target : String
  oldValue : Value := .none
  newValue : Value := .none
  change : Value := .none
  reason : String := ""
  expectedImpact : String := ""

namespace Proposal

/-- `diff`. -/
def diff (proposal : Proposal) : Payload :=
  [(proposal.target, .dict [("old", proposal.oldValue), ("new", proposal.newValue)])]

/-- `as_dict`. -/
def asDict (proposal : Proposal) : Payload :=
  [("type", .str EventType.proposal.value), ("proposal_id", .str proposal.proposalId),
    ("proposal_type", .str proposal.proposalType), ("target", .str proposal.target),
    ("old_value", proposal.oldValue), ("new_value", proposal.newValue),
    ("change", proposal.change), ("reason", .str proposal.reason),
    ("expected_impact", .str proposal.expectedImpact), ("diff", .dict proposal.diff)]

/-- `weight_change` without an id of the caller. -/
def weightChange (runtime : Runtime) (signal : String) (oldValue newValue : ℚ)
    (reason expectedImpact : String) : Proposal where
  proposalId := "P-weights." ++ signal ++ "-" ++ runtime.text newValue
  proposalType := "weight_change"
  target := "weights." ++ signal
  oldValue := .float oldValue
  newValue := .float newValue
  change := .float (roundHalfEven 6 (newValue - oldValue))
  reason := reason
  expectedImpact := expectedImpact

/-- `risk_change` without an id of the caller. -/
def riskChange (runtime : Runtime) (target : String) (oldValue newValue : ℚ) (reason : String) :
    Proposal where
  proposalId := "P-" ++ target ++ "-" ++ runtime.text newValue
  proposalType := "risk_change"
  target := target
  oldValue := .float oldValue
  newValue := .float newValue
  change := .float (roundHalfEven 6 (newValue - oldValue))
  reason := reason

end Proposal

/-! ## Scorecard -/

/-- `_TypeStat`. -/
structure TypeStat where
  attempts : ℕ := 0
  successes : ℕ := 0

abbrev ProposalScorecard := Dict String TypeStat

namespace ProposalScorecard

/-- `record`. -/
def record (scorecard : ProposalScorecard) (proposalType : String) (success : Bool) :
    ProposalScorecard :=
  let stat := (scorecard.lookup proposalType).getD {}
  Dict.set proposalType
    { attempts := stat.attempts + 1
      successes := if success then stat.successes + 1 else stat.successes }
    scorecard

/-- `success_rate`. -/
def successRate (scorecard : ProposalScorecard) (proposalType : String) : ℚ :=
  match scorecard.lookup proposalType with
  | none => 5 / 10
  | some stat =>
      if stat.attempts = 0 then 5 / 10 else roundHalfEven 4 (stat.successes / stat.attempts)

end ProposalScorecard

/-! ## Agent -/

/-- What a proposal agent proposes. -/
abbrev Propose :=
  List Observation → CognitiveConfig → ProposalScorecard → Except Raised (Option Proposal)

/-- `ProposalAgent` with its defaults. -/
structure ProposalAgent where
  step : ℚ := 5 / 100
  minConfidence : ℚ := 50 / 100

namespace ProposalAgent

def strongest : List Observation → Option Observation
  | [] => none
  | first :: rest => some (rest.foldl (fun best observation =>
      if best.confidence < observation.confidence then observation else best) first)

/-- Confidence that a success rate demands. -/
def requiredConfidence (agent : ProposalAgent) (rate : ℚ) : ℚ :=
  min (95 / 100) (agent.minConfidence + (1 - rate) * (3 / 10))

/-- `propose`. -/
def propose (runtime : Runtime) (agent : ProposalAgent) : Propose :=
  fun observations config scorecard =>
    match strongest (observations.filter (·.signal ∈ weightKeys)) with
    | none => .ok none
    | some best =>
        let rate := ProposalScorecard.successRate scorecard "weight_change"
        if best.confidence < agent.requiredConfidence rate then .ok none
        else
          let up := best.direction = "outperforming"
          let step := agent.step * (5 / 10 + 5 / 10 * rate)
          match config.weights.lookup best.signal with
          -- `KeyError` of a configuration without the weight
          | none => .error .keyError
          | some weight =>
              let oldValue := roundHalfEven 6 weight
              let newValue := roundHalfEven 4 (clampWeight (oldValue + if up then step else -step))
              if newValue = oldValue then .ok none
              else
                let reason := best.signal ++ " agent " ++ best.direction ++ " (grade " ++
                  best.evidence.agentGrade ++ ", correct_rate " ++
                  runtime.text best.evidence.correctRate ++ ", n=" ++
                  toString best.evidence.sampleSize ++ ")"
                let expected := "shift weights." ++ best.signal ++ (if up then " up" else " down") ++
                  " by " ++ runtime.text |roundHalfEven 4 (newValue - oldValue)| ++
                  " toward better-attributed signal"
                .ok (some (.weightChange runtime best.signal oldValue newValue reason expected))

end ProposalAgent

/-! ## Queue -/

structure QueueEntry where
  proposal : Proposal
  status : ProposalStatus
  verdict : Option Payload := none
  delta : Option Payload := none
  pullRequest : Option Payload := none
  proposalGrade : Option Payload := none

abbrev ProposalQueue := List QueueEntry

namespace ProposalQueue

/-- `add`. -/
def add (queue : ProposalQueue) (proposal : Proposal) (status : ProposalStatus) : ProposalQueue :=
  queue ++ [{ proposal := proposal, status := status }]

/-- `update`: the first entry with the id is changed. -/
def update (proposalId : String) (change : QueueEntry → QueueEntry) : ProposalQueue → ProposalQueue
  | [] => []
  | entry :: rest =>
      if entry.proposal.proposalId = proposalId then change entry :: rest
      else entry :: update proposalId change rest

end ProposalQueue

/-! ## Governor -/

/-- `_Admit`. -/
structure Admit where
  cycle : ℤ
  key : String

structure ProposalGovernor where
  quota : ℤ := 3
  window : ℤ := 10
  cooldown : ℤ := 5
  cycle : ℤ := 0
  admitted : List Admit := []
  /-- The cycle at which the bench of a target ends. -/
  cooldowns : Dict String ℤ := []
  blocked : Dict String ℕ := []

namespace ProposalGovernor

/-- The new value as `_key` compares it. -/
def keyValue (runtime : Runtime) : Value → Except Raised Value
  | .int number => (runtime.toFloat (.int number)).map fun value => .float (roundHalfEven 4 value)
  | .float number => .ok (.float (roundHalfEven 4 number))
  | value => .ok value

/-- `_key`. -/
def proposalKey (runtime : Runtime) (proposal : Proposal) : Except Raised String :=
  (keyValue runtime proposal.newValue).map fun value =>
    proposal.target ++ "=" ++ runtime.str value

/-- `_block`. -/
def block (governor : ProposalGovernor) (reason : String) : ProposalGovernor :=
  { governor with
    blocked := Dict.set reason ((governor.blocked.lookup reason).getD 0 + 1) governor.blocked }

/-- The next cycle, with the admissions still inside the window. -/
def advance (governor : ProposalGovernor) : ProposalGovernor :=
  { governor with
    cycle := governor.cycle + 1
    admitted := governor.admitted.dropWhile
      fun entry => decide (entry.cycle ≤ governor.cycle + 1 - governor.window) }

/-- `admit`: the reason is `admitted` or names the brake. -/
def admitProposal (runtime : Runtime) (governor : ProposalGovernor) (proposal : Proposal) :
    Except Raised (Bool × String) × ProposalGovernor :=
  let current := governor.advance
  let refuse (reason : String) : Except Raised (Bool × String) × ProposalGovernor :=
    (.ok (false, reason), current.block reason)
  let benched := match current.cooldowns.lookup proposal.target with
    | none => false
    | some ends => decide (current.cycle < ends)
  if benched then refuse "cooldown"
  else
    match proposalKey runtime proposal with
    | .error error => (.error error, current)
    | .ok key =>
        if current.admitted.any (·.key = key) then refuse "duplicate"
        else if (current.admitted.length : ℤ) ≥ current.quota then refuse "quota_exceeded"
        else
          (.ok (true, "admitted"),
            { current with admitted := current.admitted ++ [⟨current.cycle, key⟩] })

/-- `record_outcome`. -/
def recordOutcome (governor : ProposalGovernor) (proposal : Proposal) (approved : Bool) :
    ProposalGovernor :=
  if approved then governor
  else
    { governor with
      cooldowns := Dict.set proposal.target (governor.cycle + governor.cooldown)
        governor.cooldowns }

end ProposalGovernor

end TradingControl.Cognitive
