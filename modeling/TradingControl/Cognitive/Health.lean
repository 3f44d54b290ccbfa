import TradingControl.Cognitive.Runs

/-!
# Health of the loop

The dashboard counts what it finds on the event stream.  Along the proposal pipeline, every stage
should have seen no more than the stage before it.
-/

namespace TradingControl.Cognitive

open Python

/-! ## The view -/

structure AgentHealth where
  status : String
  events : ℕ
  lastSeq : ℤ

/-- Counts of the proposal pipeline. -/
structure ProposalPipeline where
  generated : ℕ
  backtested : ℕ
  approved : ℕ
  rejected : ℕ
  prRequests : ℕ
  merged : ℕ
deriving DecidableEq

/-- The result of `assess_health`. -/
structure CognitiveHealth where
  totalEvents : ℕ
  emitted : ℕ
  dropped : ℕ
  lastSeq : ℤ
  byType : Dict EventType ℕ
  agents : Dict String AgentHealth
  signalsReceived : Dict String ℕ
  decisionsMade : ℕ
  executions : ℕ
  lastDecision : Value
  proposalPipeline : ProposalPipeline
  backtestRuns : ℕ
  tradesClosed : ℕ
  tradesGraded : ℕ
  ungraded : ℕ
  observations : ℕ

/-- A verdict of the challenger whose `approved` is the truth value. -/
def Message.verdictIs (approved : Bool) (message : Message) : Bool :=
  message.kind = .challengerVerdict && match message.payload.lookup "approved" with
    | some (.bool value) => value == approved
    | _ => false

def Message.gradesTrade (message : Message) : Bool :=
  message.kind = .grade && match message.payload.lookup "subject" with
    | some (.str subject) => subject == "trade"
    | _ => false

def expectedSources : List String :=
  ["news_agent", "technical_agent", "macro_agent", "risk_agent", "reasoning_agent",
    "proposal_agent"]

/-- `assess_health`. -/
def assessHealth (stream : EventStream) : CognitiveHealth :=
  let events := stream.events
  let byType := counter (events.map (·.kind))
  let count (kind : EventType) : ℕ := (byType.lookup kind).getD 0
  let named := events.filter (·.source ≠ "")
  let countsBySource := counter (named.map (·.source))
  let latestBySource : Dict String ℤ :=
    named.foldl (fun latest event => Dict.set event.source event.seq latest) []
  let agent (source : String) : AgentHealth :=
    { status := if (countsBySource.lookup source).getD 0 ≠ 0 then "healthy" else "idle"
      events := (countsBySource.lookup source).getD 0
      lastSeq := (latestBySource.lookup source).getD (-1) }
  let graded := events.countP (·.gradesTrade)
  { totalEvents := events.length
    emitted := stream.emitted
    dropped := stream.dropped
    lastSeq := (events.getLast?.map fun event => (event.seq : ℤ)).getD (-1)
    byType := byType
    agents := expectedSources.map fun source => (source, agent source)
    signalsReceived := [("news", count .newsSignal), ("tech", count .techSignal),
      ("macro", count .macroSignal), ("risk", count .riskSignal)]
    decisionsMade := count .decision
    executions := count .execution
    lastDecision := ((stream.latest .decision).bind (·.payload.lookup "action")).getD .none
    proposalPipeline :=
      { generated := count .proposal
        backtested := count .backtestResult
        approved := events.countP (·.verdictIs true)
        rejected := events.countP (·.verdictIs false)
        prRequests := count .prRequest
        merged := count .configVersion }
    backtestRuns := count .backtestResult
    tradesClosed := count .tradeOutcome
    tradesGraded := graded
    ungraded := count .tradeOutcome - graded
    observations := count .observation }

/-! ## Counts of messages -/

def countKind (kind : EventType) (messages : List Message) : ℕ := messages.countP (·.kind = kind)

def tally (messages : List Message) : ProposalPipeline where
  generated := countKind .proposal messages
  backtested := countKind .backtestResult messages
  approved := messages.countP (·.verdictIs true)
  rejected := messages.countP (·.verdictIs false)
  prRequests := countKind .prRequest messages
  merged := countKind .configVersion messages

theorem pipeline_eq_tally (stream : EventStream) :
    (assessHealth stream).proposalPipeline = tally (stream.events.map (·.toMessage)) := by
  have counted : ∀ kind, ((counter (stream.events.map (·.kind))).lookup kind).getD 0 =
      countKind kind (stream.events.map (·.toMessage)) := by
    intro kind
    rw [getD_lookup_counter, List.count, List.countP_map, countKind, List.countP_map]
    rfl
  rw [assessHealth, tally]
  simp only [counted, List.countP_map]
  rfl

theorem countKind_append (kind : EventType) (first second : List Message) :
    countKind kind (first ++ second) = countKind kind first + countKind kind second :=
  List.countP_append

/-- What is counted of the messages of a part of a run. -/
structure Flows (merges : ℕ) (messages : List Message) : Prop where
  backtested : countKind .backtestResult messages ≤ countKind .proposal messages
  judged : messages.countP (·.verdictIs true) + messages.countP (·.verdictIs false) ≤
    countKind .backtestResult messages
  requested : messages.countP (·.verdictIs true) = countKind .prRequest messages
  merged : countKind .configVersion messages = merges

theorem Flows.append {merges laterMerges : ℕ} {messages later : List Message}
    (flows : Flows merges messages) (flowsToo : Flows laterMerges later) :
    Flows (merges + laterMerges) (messages ++ later) := by
  obtain ⟨backtested, judged, requested, merged⟩ := flows
  obtain ⟨backtestedToo, judgedToo, requestedToo, mergedToo⟩ := flowsToo
  constructor <;> simp only [countKind_append, List.countP_append] <;> omega

/-- Kinds of events outside of the pipeline. -/
def EventType.Aside (kind : EventType) : Prop :=
  kind ∉ [.proposal, .backtestResult, .challengerVerdict, .prRequest, .configVersion]

theorem flows_aside {messages : List Message}
    (aside : ∀ message ∈ messages, message.kind.Aside) : Flows 0 messages := by
  have none : ∀ kind ∈ [EventType.proposal, .backtestResult, .prRequest, .configVersion],
      countKind kind messages = 0 := by
    intro kind staged
    rw [countKind, List.countP_eq_zero]
    intro message member same
    rw [decide_eq_true_eq] at same
    refine aside message member ?_
    rw [same]
    simp only [List.mem_cons, List.not_mem_nil, or_false] at staged ⊢
    tauto
  have verdicts : ∀ approved, messages.countP (·.verdictIs approved) = 0 := by
    intro approved
    rw [List.countP_eq_zero]
    intro message member verdict
    rw [Message.verdictIs, Bool.and_eq_true, decide_eq_true_eq] at verdict
    refine aside message member ?_
    rw [verdict.1]
    simp
  constructor <;> simp [none, verdicts]

/-! ## Messages of a cycle -/

/-- The event of a proposal. -/
def proposalMessage (proposal : Proposal) : Message :=
  { kind := .proposal, payload := proposal.asDict, source := "proposal_agent" }

/-- What a cycle tells once it has a proposal. -/
inductive CycleTells : List Message → Prop where
  | proposed (proposal : Proposal) : CycleTells [proposalMessage proposal]
  | tested (proposal : Proposal) (backtests : Backtests) :
      CycleTells [proposalMessage proposal, Loop.backtestMessage proposal backtests]
  | judged (proposal : Proposal) (backtests : Backtests) (verdict : ChallengerVerdict)
      (card plan : Payload) :
      CycleTells ([proposalMessage proposal, Loop.backtestMessage proposal backtests,
          Loop.gitopsMessage .challengerVerdict
            (verdict.asDict ++ [("proposal_id", .str proposal.proposalId)]),
          Loop.gitopsMessage .grade card] ++
        if verdict.approved then [Loop.gitopsMessage .prRequest plan] else [])

theorem CycleTells.flows {messages : List Message} (told : CycleTells messages) :
    Flows 0 messages := by
  cases told with
  | proposed proposal =>
      constructor <;> simp [countKind, proposalMessage, Message.verdictIs]
  | tested proposal backtests =>
      constructor <;>
        simp [countKind, proposalMessage, Loop.backtestMessage, Loop.gitopsMessage,
          Message.verdictIs]
  | judged proposal backtests verdict card plan =>
      have lookup : (verdict.asDict ++ [("proposal_id", Value.str proposal.proposalId)]).lookup
          "approved" = some (.bool verdict.approved) := rfl
      cases approved : verdict.approved <;> constructor <;>
        simp [countKind, proposalMessage, Loop.backtestMessage, Loop.gitopsMessage,
          Message.verdictIs, lookup, approved]

/-- The operation is a merge. -/
def LoopOp.isMerge : LoopOp → Bool
  | .merge _ => true
  | _ => false

variable (runtime : Runtime)

namespace Loop

/-- The loop has said these messages. -/
def Said (before after : Loop) (messages : List Message) : Prop :=
  after.stream = before.stream.emitAll messages

theorem said_settle (call : EvolveCall) (proposal : Proposal) (candidate : CognitiveConfig)
    (backtests : Backtests) (verdict : ChallengerVerdict) (loop : Loop) :
    ∃ card plan, Said loop (settle runtime call proposal candidate backtests verdict loop).2
      ([gitopsMessage .challengerVerdict
          (verdict.asDict ++ [("proposal_id", .str proposal.proposalId)]),
        gitopsMessage .grade card] ++
        if verdict.approved then [gitopsMessage .prRequest plan] else []) := by
  refine ⟨(proposalCard runtime proposal backtests).asDict,
    (buildPullRequest runtime proposal verdict backtests.inSample backtests.outSample loop.config
      candidate call.baseRef).asDict, ?_⟩
  rw [settle, Said]
  cases verdict.approved <;> rfl

theorem consider_tells (call : EvolveCall) (proposal : Proposal) (loop : Loop) :
    ∃ messages, CycleTells messages ∧
      Said loop (consider runtime call proposal loop).2 messages := by
  rw [consider]
  dsimp only
  generalize announcement : loop.emit _ = announced
  have stream : announced.stream = loop.stream.emit (proposalMessage proposal) := by
    rw [← announcement]
    rfl
  have stopped : ∃ messages, CycleTells messages ∧
      announced.stream = loop.stream.emitAll messages :=
    ⟨_, .proposed proposal, stream⟩
  rcases announced.governor.admitProposal runtime proposal with
    ⟨error | ⟨admitted, reason⟩, governor⟩
  · exact stopped
  dsimp only
  split_ifs with opened
  case neg => exact stopped
  rw [pursue]
  dsimp only
  rcases applyProposalToConfig runtime announced.config proposal with error | ⟨_ | candidate⟩
  · exact stopped
  · exact stopped
  unfold judge
  dsimp only
  rcases runBacktests runtime call announced.config candidate with error | backtests
  · exact stopped
  dsimp only
  generalize testing : Loop.emit _ (backtestMessage proposal backtests) = tested
  have streamToo : tested.stream = loop.stream.emitAll
      [proposalMessage proposal, backtestMessage proposal backtests] := by
    rw [← testing]
    change announced.stream.emit _ = _
    rw [stream]
    rfl
  rcases tested.challenge runtime proposal backtests with error | verdict
  · exact ⟨_, .tested proposal backtests, streamToo⟩
  · obtain ⟨card, plan, said⟩ :=
      said_settle runtime call proposal candidate backtests verdict tested
    refine ⟨_, .judged proposal backtests verdict card plan, ?_⟩
    rw [Said] at said ⊢
    dsimp only
    rw [said, streamToo, ← EventStream.emitAll_append]
    rfl

/-! ## Messages of a run -/

theorem Said.append {first second third : Loop} {messages later : List Message}
    (said : Said first second messages) (saidToo : Said second third later) :
    Said first third (messages ++ later) := by
  rw [Said] at said saidToo ⊢
  rw [saidToo, said, EventStream.emitAll_append]

theorem said_learn (loop : Loop) :
    Said loop (loop.learn runtime).2 (loop.learnMessages runtime) ∧
      Flows 0 (loop.learnMessages runtime) := by
  refine ⟨rfl, flows_aside ?_⟩
  intro message member
  rcases List.mem_append.mp member with observed | graded
  · obtain ⟨observation, -, rfl⟩ := List.mem_map.mp observed
    simp [learningMessage, EventType.Aside]
  · obtain ⟨stats, -, rfl⟩ := List.mem_map.mp graded
    simp [learningMessage, EventType.Aside]

theorem said_evolve (call : EvolveCall) (loop : Loop) :
    ∃ messages, Said loop (loop.evolve runtime call).2 messages ∧ Flows 0 messages := by
  obtain ⟨learned, flows⟩ := said_learn runtime loop
  rw [evolve]
  dsimp only
  rcases call.propose (loop.learn runtime).1 (loop.learn runtime).2.config
    (loop.learn runtime).2.scorecard with error | ⟨_ | proposal⟩
  · exact ⟨_, learned, flows⟩
  · exact ⟨_, learned, flows⟩
  · obtain ⟨messages, told, said⟩ := consider_tells runtime call proposal (loop.learn runtime).2
    exact ⟨_, learned.append said, flows.append told.flows⟩

theorem said_gradeClosed (traceId : String) (outcome : TradeOutcome)
    (decision breakdown : Payload) (decisionScore : ℚ) (loop : Loop) :
    ∃ messages,
      Said loop (gradeClosed runtime traceId outcome decision breakdown decisionScore loop).2
        messages ∧ ∀ message ∈ messages, message.kind.Aside := by
  rw [gradeClosed]
  rcases attributePnl runtime breakdown outcome.realizedPnl with error | attribution
  · exact ⟨[], rfl, by simp⟩
  dsimp only
  rcases counterfactual _ outcome.realizedPnlPct outcome.side with error | result
  · exact ⟨_, rfl, by simp [learningMessage, EventType.Aside]⟩
  · refine ⟨[_, _, learningMessage .counterfactual result.asDict traceId], rfl, ?_⟩
    simp [learningMessage, EventType.Aside]

theorem kind_of_readDecision {traceId : String} {decision breakdown : Payload}
    {outcome : TradeOutcome} {loop : Loop} {decisionScore : ℚ} {message : Message}
    (read : loop.readDecision runtime traceId outcome decision =
      .ok (breakdown, decisionScore, message)) : message.kind = .tradeOutcome := by
  obtain ⟨entries, -, read⟩ := bind_eq_ok.mp read
  obtain ⟨score, -, read⟩ := bind_eq_ok.mp read
  obtain ⟨built, outcomes, read⟩ := bind_eq_ok.mp read
  obtain ⟨version, -, made⟩ := bind_eq_ok.mp outcomes
  cases Except.ok.inj read
  cases Except.ok.inj made
  rfl

theorem said_closeTrade (traceId : String) (outcome : TradeOutcome) (loop : Loop) :
    ∃ messages, Said loop (loop.closeTrade runtime traceId outcome).2 messages ∧
      ∀ message ∈ messages, message.kind.Aside := by
  rw [closeTrade, closeWith]
  rcases read : loop.readDecision runtime traceId outcome ((loop.decisionFor traceId).getD []) with
    error | ⟨breakdown, decisionScore, message⟩
  · exact ⟨[], rfl, by simp⟩
  · obtain ⟨messages, said, aside⟩ := said_gradeClosed runtime traceId outcome
      ((loop.decisionFor traceId).getD []) breakdown decisionScore (loop.emit message)
    have opened : Said loop (loop.emit message) [message] := rfl
    refine ⟨[message] ++ messages, opened.append said, ?_⟩
    intro other member
    rcases List.mem_cons.mp member with rfl | later
    · simp [kind_of_readDecision runtime read, EventType.Aside]
    · exact aside other later

theorem aside_of_mem_stepMessages {loop : Loop} {call : StepCall} {message : Message}
    (member : message ∈ loop.stepMessages call) : message.kind.Aside := by
  simp only [stepMessages, decisionMessages, Specialists.messages, List.mem_append, List.mem_cons,
    List.not_mem_nil, or_false] at member
  rcases member with (rfl | rfl | rfl | rfl | rfl | rfl) | rfl | rfl | rfl <;>
    simp [EventType.Aside]

theorem said_perform (loop : Loop) (operation : LoopOp) :
    ∃ messages, Said loop (loop.perform runtime operation) messages ∧
      Flows (if operation.isMerge then 1 else 0) messages := by
  cases operation with
  | step call =>
      exact ⟨_, rfl, flows_aside fun _ member => aside_of_mem_stepMessages member⟩
  | closeTrade traceId outcome =>
      obtain ⟨messages, said, aside⟩ := said_closeTrade runtime traceId outcome loop
      exact ⟨messages, said, flows_aside aside⟩
  | learn => exact ⟨_, said_learn runtime loop⟩
  | evolve call => exact said_evolve runtime call loop
  | merge call =>
      refine ⟨[configVersionMessage call.candidate (some (gradeConfigVersion runtime
        call.candidate.version call.sharpe call.maxDrawdownPct))], rfl, ?_⟩
      constructor <;>
        simp [countKind, configVersionMessage, Message.verdictIs, LoopOp.isMerge]
  | detectDrift =>
      refine ⟨_, rfl, flows_aside ?_⟩
      intro message member
      obtain ⟨alert, -, rfl⟩ := List.mem_map.mp member
      simp [EventType.Aside]

theorem said_run (loop : Loop) (operations : List LoopOp) :
    ∃ messages, Said loop (loop.run runtime operations) messages ∧
      Flows (operations.countP LoopOp.isMerge) messages := by
  induction operations generalizing loop with
  | nil => exact ⟨[], rfl, flows_aside (by simp)⟩
  | cons operation rest induction =>
      obtain ⟨messages, said, flows⟩ := said_perform runtime loop operation
      obtain ⟨later, saidToo, flowsToo⟩ := induction (loop.perform runtime operation)
      refine ⟨messages ++ later, said.append saidToo, ?_⟩
      rw [List.countP_cons, Nat.add_comm]
      exact flows.append flowsToo

end Loop

/-! ## The pipeline -/

namespace EventStream

theorem dropped_le_emit (stream : EventStream) (message : Message) :
    stream.dropped ≤ (stream.emit message).dropped := by
  rw [emit]
  dsimp only
  split_ifs
  · exact Nat.le_succ _
  · exact le_rfl

theorem dropped_le_emitAll (stream : EventStream) (messages : List Message) :
    stream.dropped ≤ (stream.emitAll messages).dropped := by
  induction messages generalizing stream with
  | nil => exact le_rfl
  | cons message rest induction =>
      exact (stream.dropped_le_emit message).trans (induction (stream.emit message))

theorem messages_emit_of_kept (stream : EventStream) (message : Message)
    (kept : (stream.emit message).dropped = stream.dropped) :
    (stream.emit message).events.map (·.toMessage) =
      stream.events.map (·.toMessage) ++ [message] := by
  rw [emit] at kept ⊢
  dsimp only at kept ⊢
  split_ifs at kept ⊢
  · exact absurd kept (Nat.succ_ne_self _)
  · rw [List.map_append, List.map_singleton]

theorem messages_emitAll_of_kept (stream : EventStream) (messages : List Message)
    (kept : (stream.emitAll messages).dropped = stream.dropped) :
    (stream.emitAll messages).events.map (·.toMessage) =
      stream.events.map (·.toMessage) ++ messages := by
  induction messages generalizing stream with
  | nil => exact (List.append_nil _).symm
  | cons message rest induction =>
      rw [emitAll_cons] at kept ⊢
      have first := stream.dropped_le_emit message
      have later := (stream.emit message).dropped_le_emitAll rest
      rw [induction (stream.emit message) (by omega),
        stream.messages_emit_of_kept message (by omega), List.append_assoc, List.singleton_append]

end EventStream

/-- The pipeline narrows from stage to stage, and the last stage counts the merges. -/
structure Funnel (merges : ℕ) (pipeline : ProposalPipeline) : Prop where
  generated : pipeline.backtested ≤ pipeline.generated
  backtested : pipeline.backtested = pipeline.approved + pipeline.rejected
  approved : pipeline.approved = pipeline.prRequests
  requested : pipeline.merged ≤ pipeline.prRequests
  merged : pipeline.merged = merges

/-- What the health view counts in a run of a new loop, besides what its stream held before: the
version that the loop starts with is counted as merged. -/
theorem pipeline_run (stream : EventStream) (config : CognitiveConfig) (operations : List LoopOp)
    (kept : ((Loop.init stream config).run runtime operations).stream.dropped = stream.dropped) :
    ∃ messages, Flows (operations.countP LoopOp.isMerge + 1) messages ∧
      (assessHealth ((Loop.init stream config).run runtime operations).stream).proposalPipeline =
        tally (stream.events.map (·.toMessage) ++ messages) := by
  obtain ⟨messages, said, flows⟩ := Loop.said_run runtime (Loop.init stream config) operations
  have opening : Flows 1 [Loop.configVersionMessage config none] := by
    constructor <;> simp [countKind, Loop.configVersionMessage, Message.verdictIs]
  have all : ((Loop.init stream config).run runtime operations).stream =
      stream.emitAll ([Loop.configVersionMessage config none] ++ messages) := said
  refine ⟨_, Nat.add_comm _ _ ▸ opening.append flows, ?_⟩
  rw [pipeline_eq_tally, all, stream.messages_emitAll_of_kept _ (all ▸ kept)]

/-- No run has a funnel. -/
theorem not_funnel (stream : EventStream) (config : CognitiveConfig) (operations : List LoopOp)
    (kept : ((Loop.init stream config).run runtime operations).stream.dropped = stream.dropped) :
    ¬Funnel (operations.countP LoopOp.isMerge)
      (assessHealth
        ((Loop.init stream config).run runtime operations).stream).proposalPipeline := by
  intro funnel
  obtain ⟨messages, flows, pipeline⟩ := pipeline_run runtime stream config operations kept
  have merged := funnel.merged
  rw [pipeline, tally] at merged
  dsimp only at merged
  rw [countKind_append, flows.merged] at merged
  omega

theorem not_funnel_noOperations :
    ¬Funnel 0 (assessHealth ((Loop.init { maxEvents := some 100000 } defaultConfig).run
      Reference.runtime []).stream).proposalPipeline :=
  not_funnel Reference.runtime { maxEvents := some 100000 } defaultConfig [] (by rfl)

/-- A new loop has merged nothing and shows one merge. -/
theorem newLoop_showsMerge :
    ¬Funnel 0 (assessHealth
      (Loop.init { maxEvents := some 100000 } defaultConfig).stream).proposalPipeline := by
  intro funnel
  exact absurd funnel.merged (by decide +kernel)

end TradingControl.Cognitive
