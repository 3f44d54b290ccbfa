import TradingControl.Cognitive.Gitops

/-!
# Cognitive loop

One loop on one event stream: a step perceives, decides, gates and executes, a closed trade is
attributed and graded, and an evolution cycle proposes and judges a change.  Only a merge changes
the configuration.
-/

namespace TradingControl.Cognitive

open Python

/-! ## State -/

/-- `CognitiveLoop`. -/
structure Loop where
  stream : EventStream
  config : CognitiveConfig
  learning : LearningEngine := {}
  importance : ImportanceTracker := .fresh
  scorecard : ProposalScorecard := []
  governor : ProposalGovernor := {}
  queue : ProposalQueue := []
  /-- The merged proposal that produced the active configuration. -/
  configProposalId : Option String := none
  drift : DriftMonitor := .ofLoop

def optionText : Option String → Value
  | none => .none
  | some text => .str text

namespace Loop

/-- `self.stream.emit`. -/
def emit (loop : Loop) (message : Message) : Loop :=
  { loop with stream := loop.stream.emit message }

/-- Several emissions one after another. -/
def emitAll (loop : Loop) (messages : List Message) : Loop :=
  { loop with stream := loop.stream.emitAll messages }

/-- The event of `_emit_config_version`. -/
def configVersionMessage (config : CognitiveConfig) (grade : Option ConfigGradeCard) : Message :=
  { kind := .configVersion
    payload :=
      [("type", .str EventType.configVersion.value), ("version", .int config.version),
        ("config", .dict config.toDict),
        ("grade", (grade.map fun card => Value.dict card.asDict).getD .none)]
    source := "config_merge" }

/-- `CognitiveLoop.__init__` on the stream it has chosen. -/
def init (stream : EventStream) (config : CognitiveConfig) : Loop :=
  ({ stream, config } : Loop).emit (configVersionMessage config none)

end Loop

/-! ## Step -/

/-- Arguments of `step`. -/
structure StepCall where
  specialists : Specialists
  market : MarketView
  equity : ℚ
  positionPct : ℚ
  currentExposurePct : ℚ := 0
  dayPnlPct : ℚ := 0
  traceId : Option String := none

/-- What `step` returns. -/
structure StepResult where
  traceId : String
  features : Dict String ℚ
  decision : Decision
  gate : RiskGate
  execution : Execution

namespace Loop

/-- `trace_id or f"trace-{len(self.stream)}"`. -/
def traceIdOf (loop : Loop) (given : Option String) : String :=
  orDefault given ("trace-" ++ Nat.repr loop.stream.events.length)

/-- Payload with the lineage of the active configuration. -/
def withLineage (loop : Loop) (payload : Payload) : Payload :=
  payload ++ [("config_version", .int loop.config.version),
    ("config_proposal_id", optionText loop.configProposalId)]

/-- What a step works out before it emits. -/
def stepResult (loop : Loop) (call : StepCall) : StepResult :=
  let features := call.specialists.features call.market
  let decision := decideAction features loop.config
  let gate := evaluateRisk decision loop.config call.positionPct call.currentExposurePct
    call.dayPnlPct
  { traceId := loop.traceIdOf call.traceId
    features := features
    decision := decision
    gate := gate
    execution := execute decision gate call.market.symbol call.market.price call.equity }

/-- Events of a step after those of the agents. -/
def decisionMessages (loop : Loop) (call : StepCall) : List Message :=
  let result := loop.stepResult call
  let message (kind : EventType) (payload : Payload) (source : String) : Message :=
    { kind, payload, traceId := result.traceId, source, ts := call.market.ts }
  [message .decision (loop.withLineage result.decision.asDict) "decision_engine",
    message .riskGate result.gate.asDict "risk_engine",
    message .execution (loop.withLineage result.execution.asDict) "execution_engine"]

/-- Events of a step. -/
def stepMessages (loop : Loop) (call : StepCall) : List Message :=
  call.specialists.messages call.market (loop.traceIdOf call.traceId) ++ loop.decisionMessages call

/-- `step`. -/
def step (call : StepCall) (loop : Loop) : StepResult × Loop :=
  (loop.stepResult call, loop.emitAll (loop.stepMessages call))

/-! ## Closed trades -/

/-- `_decision_for`. -/
def decisionFor (loop : Loop) (traceId : String) : Option Payload :=
  (loop.stream.events.reverse.find? fun event =>
    event.kind = .decision && event.traceId = traceId).map (·.payload)

/-- `dict(value)` of a breakdown. -/
def breakdownOf : Option Value → Except Raised Payload
  | none => .ok []
  | some (.dict entries) => .ok entries
  | some (.list []) => .ok []
  | some (.str text) => if text = "" then .ok [] else .error .valueError
  | some (.list _) => .error .valueError
  | some _ => .error .typeError

/-- The outcome event; the version of the decision is read when there is one. -/
def outcomeMessage (runtime : Runtime) (loop : Loop) (traceId : String) (decision : Payload)
    (outcome : TradeOutcome) : Except Raised Message := do
  let version ← runtime.toInt
    ((decision.lookup "config_version").getD (.int loop.config.version))
  return {
    kind := .tradeOutcome
    payload :=
      [("type", .str EventType.tradeOutcome.value),
        ("realized_pnl", .float (roundHalfEven 6 outcome.realizedPnl)),
        ("realized_pnl_pct", .float (roundHalfEven 6 outcome.realizedPnlPct)),
        ("side", .str outcome.side), ("config_version", .int version),
        ("config_proposal_id", (decision.lookup "config_proposal_id").getD .none)]
    traceId := traceId
    source := "execution_engine" }

/-- What `close_trade` returns. -/
structure TradeReport where
  attribution : Attribution
  grade : TradeGradeCard
  counterfactual : CounterfactualResult

def learningMessage (kind : EventType) (payload : Payload) (traceId : String) : Message :=
  { kind, payload, traceId, source := "learning_engine" }

/-- The samples of a closed trade. -/
def observeTrade (monitor : DriftMonitor) (card : TradeGradeCard) (result : CounterfactualResult)
    (outcome : TradeOutcome) : DriftMonitor :=
  ((monitor.observe "trade_grade_score" card.overallScore).observe "decision_regret_pct"
    result.regretPct).observe "direction_correct" (if outcome.realizedPnlPct > 0 then 1 else 0)

/-- `close_trade` after its outcome event. -/
def gradeClosed (runtime : Runtime) (traceId : String) (outcome : TradeOutcome)
    (decision breakdown : Payload) (decisionScore : ℚ) (loop : Loop) :
    Except Raised TradeReport × Loop :=
  match attributePnl runtime breakdown outcome.realizedPnl with
  | .error error => (.error error, loop)
  | .ok attribution =>
      let card := gradeTrade runtime traceId decisionScore outcome
      let graded := { loop.emitAll
          [learningMessage .attribution attribution.asDict traceId,
            learningMessage .grade card.asDict traceId] with
        importance := loop.importance.update attribution (sign outcome.realizedPnl) }
      let chosen := (decision.lookup "action").getD .none
      let action := if chosen.truthy then chosen else .str outcome.side
      match counterfactual action outcome.realizedPnlPct outcome.side with
      | .error error => (.error error, graded)
      | .ok result =>
          (.ok ⟨attribution, card, result⟩,
            { graded.emit (learningMessage .counterfactual result.asDict traceId) with
              drift := observeTrade loop.drift card result outcome })

/-- What `close_trade` reads from a decision before it emits. -/
def readDecision (runtime : Runtime) (loop : Loop) (traceId : String) (outcome : TradeOutcome)
    (decision : Payload) : Except Raised (Payload × ℚ × Message) := do
  let breakdown ← breakdownOf (decision.lookup "breakdown")
  let decisionScore ← floatField runtime decision "score" 0
  return (breakdown, decisionScore, ← loop.outcomeMessage runtime traceId decision outcome)

/-- `close_trade` once it has found the decision. -/
def closeWith (runtime : Runtime) (traceId : String) (outcome : TradeOutcome)
    (decision : Payload) (loop : Loop) : Except Raised TradeReport × Loop :=
  match loop.readDecision runtime traceId outcome decision with
  | .error error => (.error error, loop)
  | .ok (breakdown, decisionScore, message) =>
      gradeClosed runtime traceId outcome decision breakdown decisionScore (loop.emit message)

/-- `close_trade`. -/
def closeTrade (runtime : Runtime) (traceId : String) (outcome : TradeOutcome) (loop : Loop) :
    Except Raised TradeReport × Loop :=
  closeWith runtime traceId outcome ((loop.decisionFor traceId).getD []) loop

/-- `detect_drift`. -/
def detectDrift (loop : Loop) : List DriftAlert × Loop :=
  let alerts := loop.drift.assess
  (alerts, loop.emitAll (alerts.map fun alert =>
    { kind := .drift, payload := alert.asDict, source := "learning_engine" }))

/-! ## Learning -/

/-- Events of `learn`. -/
def learnMessages (runtime : Runtime) (loop : Loop) : List Message :=
  let metadata := loop.importance.metadata
  (loop.learning.observe runtime metadata).map
      (fun observation => learningMessage .observation observation.asDict "") ++
    metadata.map fun (signal, stats) =>
      learningMessage .grade (gradeAgent runtime signal stats 30).asDict ""

/-- `learn`. -/
def learn (runtime : Runtime) (loop : Loop) : List Observation × Loop :=
  (loop.learning.observe runtime loop.importance.metadata,
    loop.emitAll (loop.learnMessages runtime))

/-- `_attribution_supports`. -/
def attributionSupports (loop : Loop) (signal : String) (direction : ℤ) : Bool :=
  let stats := (loop.importance.metadata.lookup signal).getD {}
  let good := decide (stats.totalPnlAttribution ≥ 0) && decide (stats.correctRate ≥ 5 / 10)
  if direction > 0 then good else !good

end Loop

/-! ## Evolution -/

/-- Arguments of `evolve`, with what the proposal agent of the registry does. -/
structure EvolveCall where
  propose : Propose
  prices : List ℚ
  split : ℚ := 5 / 10
  slippageSeed : ℤ := 0
  baseRef : String := "main"
  news : Option (List ℚ) := none
  folds : ℤ := 4

/-- Backtests of a candidate. -/
structure Backtests where
  inSample : BacktestDelta
  outSample : BacktestDelta
  walkForward : WalkForwardResult

/-- Evidence on a proposal that was backtested. -/
structure Judgement where
  backtests : Backtests
  verdict : ChallengerVerdict
  proposalGrade : ProposalGradeCard
  candidateConfig : CognitiveConfig
  pullRequest : Option PullRequestPlan

/-- What `evolve` returns for a proposal. -/
inductive EvolveResult where
  | blocked (proposal : Proposal) (reason : String)
  | rejected (proposal : Proposal) (reason : String)
  | judged (proposal : Proposal) (judgement : Judgement)

namespace Loop

/-- In-sample, out-of-sample and walk-forward runs of a candidate. -/
def runBacktests (runtime : Runtime) (call : EvolveCall) (config candidate : CognitiveConfig) :
    Except Raised Backtests := do
  let portion := (call.prices.length : ℚ) * call.split
  let cut := (max 1 (portion.num.tdiv portion.den)).toNat
  let inSample ← evaluateProposal runtime (call.prices.take cut) config candidate
    (call.news.map (·.take cut)) call.slippageSeed
  let outSample ← evaluateProposal runtime (call.prices.drop cut) config candidate
    (call.news.map (·.drop cut)) call.slippageSeed
  let walk ← walkForward runtime call.prices config candidate call.folds call.news
    call.slippageSeed
  return { inSample := inSample, outSample := outSample, walkForward := walk }

/-- An event of the evolution pipeline. -/
def gitopsMessage (kind : EventType) (payload : Payload) : Message :=
  { kind, payload, source := "gitops" }

/-- The event of the backtests. -/
def backtestMessage (proposal : Proposal) (backtests : Backtests) : Message :=
  gitopsMessage .backtestResult
    [("type", .str EventType.backtestResult.value), ("proposal_id", .str proposal.proposalId),
      ("in_sample", .dict backtests.inSample.asDict),
      ("out_sample", .dict backtests.outSample.asDict),
      ("walk_forward", .dict backtests.walkForward.asDict)]

def challenge (runtime : Runtime) (loop : Loop) (proposal : Proposal) (backtests : Backtests) :
    Except Raised ChallengerVerdict := do
  let signal := lastSegment proposal.target
  let direction := differenceSign (← runtime.floatValue proposal.newValue)
    (← runtime.floatValue proposal.oldValue)
  let samples := ((loop.importance.metadata.lookup signal).getD {}).samples
  return review runtime backtests.inSample backtests.outSample samples true
    (loop.attributionSupports signal direction) backtests.walkForward.consistency

/-- Grade of a proposal by its out-of-sample deltas. -/
def proposalCard (runtime : Runtime) (proposal : Proposal) (backtests : Backtests) :
    ProposalGradeCard :=
  gradeProposal runtime proposal.proposalId proposal.proposalType backtests.outSample.pnlDelta
    backtests.outSample.sharpeDelta

/-- Record a verdict and, if it approves, plan the pull request. -/
def settle (runtime : Runtime) (call : EvolveCall) (proposal : Proposal)
    (candidate : CognitiveConfig) (backtests : Backtests) (verdict : ChallengerVerdict)
    (loop : Loop) : EvolveResult × Loop :=
  let card := proposalCard runtime proposal backtests
  let recorded := { loop.emitAll
      [gitopsMessage .challengerVerdict
          (verdict.asDict ++ [("proposal_id", .str proposal.proposalId)]),
        gitopsMessage .grade card.asDict] with
    scorecard := ProposalScorecard.record loop.scorecard proposal.proposalType verdict.approved
    governor := loop.governor.recordOutcome proposal verdict.approved }
  let judgement (pullRequest : Option PullRequestPlan) : EvolveResult :=
    .judged proposal
      { backtests, verdict, proposalGrade := card, candidateConfig := candidate, pullRequest }
  if verdict.approved then
    let plan := buildPullRequest runtime proposal verdict backtests.inSample backtests.outSample
      loop.config candidate call.baseRef
    (judgement (some plan),
      { recorded.emit (gitopsMessage .prRequest plan.asDict) with
        queue := ProposalQueue.update proposal.proposalId (fun entry =>
          { entry with
            status := .approved
            verdict := some verdict.asDict
            delta := some backtests.outSample.asDict
            pullRequest := some plan.asDict
            proposalGrade := some card.asDict })
          recorded.queue })
  else
    (judgement none,
      { recorded with
        queue := ProposalQueue.update proposal.proposalId (fun entry =>
          { entry with
            status := .rejected
            verdict := some verdict.asDict
            delta := some backtests.outSample.asDict
            proposalGrade := some card.asDict })
          recorded.queue })

def judge (runtime : Runtime) (call : EvolveCall) (proposal : Proposal)
    (candidate : CognitiveConfig) (loop : Loop) : Except Raised EvolveResult × Loop :=
  match runBacktests runtime call loop.config candidate with
  | .error error => (.error error, loop)
  | .ok backtests =>
      let tested := loop.emit (backtestMessage proposal backtests)
      match tested.challenge runtime proposal backtests with
      | .error error => (.error error, tested)
      | .ok verdict =>
          let (result, settled) := settle runtime call proposal candidate backtests verdict tested
          (.ok result, settled)

/-- `evolve` once the governor has admitted a proposal. -/
def pursue (runtime : Runtime) (call : EvolveCall) (proposal : Proposal) (loop : Loop) :
    Except Raised EvolveResult × Loop :=
  let queued := { loop with queue := ProposalQueue.add loop.queue proposal .backtesting }
  match applyProposalToConfig runtime loop.config proposal with
  | .error error => (.error error, queued)
  | .ok none =>
      (.ok (.rejected proposal "proposal does not map to a valid config"),
        { queued with
          governor := loop.governor.recordOutcome proposal false
          queue := ProposalQueue.update proposal.proposalId
            (fun entry => { entry with status := .rejected }) queued.queue })
  | .ok (some candidate) => judge runtime call proposal candidate queued

/-- Queue a proposal that the governor refuses. -/
def refuse (proposal : Proposal) (reason : String) (loop : Loop) : Loop :=
  { loop with
    queue := ProposalQueue.update proposal.proposalId
      (fun entry => { entry with verdict := some [("blocked", .str reason)] })
      (ProposalQueue.add loop.queue proposal .blocked) }

/-- `evolve` once there is a proposal. -/
def consider (runtime : Runtime) (call : EvolveCall) (proposal : Proposal) (loop : Loop) :
    Except Raised EvolveResult × Loop :=
  let announced := loop.emit
    { kind := .proposal, payload := proposal.asDict, source := "proposal_agent" }
  match announced.governor.admitProposal runtime proposal with
  | (.error error, governor) => (.error error, { announced with governor })
  | (.ok (admitted, reason), governor) =>
      let governed := { announced with governor }
      if admitted then pursue runtime call proposal governed
      else (.ok (.blocked proposal reason), refuse proposal reason governed)

/-- `evolve`. -/
def evolve (runtime : Runtime) (call : EvolveCall) (loop : Loop) :
    Except Raised (Option EvolveResult) × Loop :=
  let (observations, learned) := loop.learn runtime
  match call.propose observations learned.config learned.scorecard with
  | .error error => (.error error, learned)
  | .ok none => (.ok none, learned)
  | .ok (some proposal) =>
      let (result, after) := consider runtime call proposal learned
      (result.map some, after)

end Loop

/-! ## Merge -/

/-- Arguments of `merge`. -/
structure MergeCall where
  candidate : CognitiveConfig
  sharpe : ℚ := 0
  maxDrawdownPct : ℚ := 0
  proposalId : Option String := none

namespace Loop

/-- `merge`. -/
def merge (runtime : Runtime) (call : MergeCall) (loop : Loop) : ConfigGradeCard × Loop :=
  let grade := gradeConfigVersion runtime call.candidate.version call.sharpe call.maxDrawdownPct
  let adopted := { loop with
    config := call.candidate
    configProposalId := call.proposalId
    queue := match call.proposalId with
      | none => loop.queue
      | some proposalId =>
          ProposalQueue.update proposalId (fun entry => { entry with status := .merged })
            loop.queue }
  (grade, adopted.emit (configVersionMessage call.candidate (some grade)))

end Loop

/-! ## Runs -/

/-- An operation on the loop. -/
inductive LoopOp where
  | step (call : StepCall)
  | closeTrade (traceId : String) (outcome : TradeOutcome)
  | learn
  | evolve (call : EvolveCall)
  | merge (call : MergeCall)
  | detectDrift

namespace Loop

/-- Loop after an operation, also one that raises. -/
def perform (runtime : Runtime) (loop : Loop) : LoopOp → Loop
  | .step call => (loop.step call).2
  | .closeTrade traceId outcome => (loop.closeTrade runtime traceId outcome).2
  | .learn => (loop.learn runtime).2
  | .evolve call => (loop.evolve runtime call).2
  | .merge call => (loop.merge runtime call).2
  | .detectDrift => loop.detectDrift.2

def run (runtime : Runtime) (loop : Loop) (operations : List LoopOp) : Loop :=
  operations.foldl (perform runtime) loop

end Loop

end TradingControl.Cognitive
