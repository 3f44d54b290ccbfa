import TradingControl.Cognitive.Loop

/-!
# What the operations of the loop touch

An operation outside of a step appends events to the stream and never reads it, except for the
decision that a closed trade looks up.  None but a merge touches the configuration.
-/

namespace TradingControl.Cognitive

open Python

/-- Kinds of events that no step emits after its agents. -/
def EventType.Offline (kind : EventType) : Prop :=
  kind ≠ .decision ∧ kind ≠ .riskGate ∧ kind ≠ .execution

instance (kind : EventType) : Decidable kind.Offline :=
  inferInstanceAs (Decidable (_ ∧ _))

/-- The agents emit neither decisions nor executions. -/
theorem offline_of_mem_messages {specialists : Specialists} {market : MarketView}
    {traceId : String} {message : Message}
    (member : message ∈ specialists.messages market traceId) : message.kind.Offline := by
  simp only [Specialists.messages, List.mem_cons, List.not_mem_nil, or_false] at member
  rcases member with rfl | rfl | rfl | rfl | rfl | rfl <;> simp [EventType.Offline]

namespace Loop

def onStream (loop : Loop) (stream : EventStream) : Loop := { loop with stream }

@[simp] theorem onStream_self (loop : Loop) : loop.onStream loop.stream = loop := rfl

/-- The operation appends the same events to any stream, and keeps the configuration. -/
def Appends {α : Type} (operation : Loop → α × Loop) (loop : Loop) : Prop :=
  (operation loop).2.config = loop.config ∧
  (operation loop).2.configProposalId = loop.configProposalId ∧
  ∃ messages : List Message, (∀ message ∈ messages, message.kind.Offline) ∧
    ∀ stream, operation (loop.onStream stream) =
      ((operation loop).1, (operation loop).2.onStream (stream.emitAll messages))

variable (runtime : Runtime)

/-- An operation that emits some events and changes other parts of the loop. -/
theorem appends_emits {α : Type} {operation : Loop → α × Loop} {loop : Loop} (changed : Loop)
    (result : α) (messages : List Message) (offline : ∀ message ∈ messages, message.kind.Offline)
    (config : changed.config = loop.config)
    (proposalId : changed.configProposalId = loop.configProposalId)
    (emits : ∀ stream, operation (loop.onStream stream) =
      (result, changed.onStream (stream.emitAll messages))) :
    Appends operation loop := by
  have own : operation loop = (result, changed.onStream (loop.stream.emitAll messages)) :=
    emits loop.stream
  refine ⟨by rw [own]; exact config, by rw [own]; exact proposalId, messages, offline,
    fun stream => ?_⟩
  rw [emits, own]
  rfl

theorem appends_stop {α : Type} {operation : Loop → α × Loop} {loop : Loop} (changed : Loop)
    (result : α) (config : changed.config = loop.config)
    (proposalId : changed.configProposalId = loop.configProposalId)
    (stops : ∀ stream, operation (loop.onStream stream) = (result, changed.onStream stream)) :
    Appends operation loop :=
  appends_emits changed result [] (by simp) config proposalId stops

theorem appends_detectDrift (loop : Loop) : Appends detectDrift loop := by
  refine appends_emits loop loop.detectDrift.1 (loop.drift.assess.map fun alert =>
    { kind := .drift, payload := alert.asDict, source := "learning_engine" }) ?_ rfl rfl
    fun stream => rfl
  intro message member
  obtain ⟨alert, -, rfl⟩ := List.mem_map.mp member
  simp [EventType.Offline]

theorem appends_learn (loop : Loop) : Appends (learn runtime) loop := by
  refine appends_emits loop (loop.learn runtime).1 (loop.learnMessages runtime) ?_ rfl rfl
    fun stream => rfl
  intro message member
  rcases List.mem_append.mp member with member | member
  · obtain ⟨observation, -, rfl⟩ := List.mem_map.mp member
    simp [learningMessage, EventType.Offline]
  · obtain ⟨stats, -, rfl⟩ := List.mem_map.mp member
    simp [learningMessage, EventType.Offline]

/-! ## Evolution -/

variable (call : EvolveCall)

theorem appends_settle (proposal : Proposal) (candidate : CognitiveConfig) (backtests : Backtests)
    (verdict : ChallengerVerdict) (loop : Loop) :
    Appends (settle runtime call proposal candidate backtests verdict) loop := by
  have config : (settle runtime call proposal candidate backtests verdict loop).2.config =
      loop.config := by
    rw [settle]
    dsimp only
    split_ifs <;> rfl
  have proposalId : (settle runtime call proposal candidate backtests verdict
      loop).2.configProposalId = loop.configProposalId := by
    rw [settle]
    dsimp only
    split_ifs <;> rfl
  by_cases approved : verdict.approved = true
  · refine appends_emits _ (settle runtime call proposal candidate backtests verdict loop).1
      [gitopsMessage .challengerVerdict
      (verdict.asDict ++ [("proposal_id", .str proposal.proposalId)]),
      gitopsMessage .grade (proposalCard runtime proposal backtests).asDict,
      gitopsMessage .prRequest (buildPullRequest runtime proposal verdict backtests.inSample
        backtests.outSample loop.config candidate call.baseRef).asDict] ?_ config proposalId
      fun stream => ?_
    · simp only [List.mem_cons, List.not_mem_nil, or_false]
      rintro message (rfl | rfl | rfl) <;> simp [gitopsMessage, EventType.Offline]
    · rw [settle, settle, if_pos approved, if_pos approved]
      rfl
  · refine appends_emits _ (settle runtime call proposal candidate backtests verdict loop).1
      [gitopsMessage .challengerVerdict
      (verdict.asDict ++ [("proposal_id", .str proposal.proposalId)]),
      gitopsMessage .grade (proposalCard runtime proposal backtests).asDict] ?_ config proposalId
      fun stream => ?_
    · simp only [List.mem_cons, List.not_mem_nil, or_false]
      rintro message (rfl | rfl) <;> simp [gitopsMessage, EventType.Offline]
    · rw [settle, settle, if_neg approved, if_neg approved]
      rfl

theorem Appends.after_emit {α : Type} {operation : Loop → α × Loop} {loop : Loop}
    (message : Message) (rest : Loop → α × Loop) (offline : message.kind.Offline)
    (emits : ∀ stream,
      operation (loop.onStream stream) = rest ((loop.onStream stream).emit message))
    (later : Appends rest (loop.emit message)) : Appends operation loop := by
  obtain ⟨config, proposalId, messages, offlines, outcome⟩ := later
  have own : operation loop = rest (loop.emit message) := emits loop.stream
  refine ⟨by rw [own]; exact config, by rw [own]; exact proposalId, message :: messages, ?_,
    fun stream => ?_⟩
  · intro other member
    rcases List.mem_cons.mp member with rfl | member
    · exact offline
    · exact offlines other member
  · rw [emits, own]
    exact outcome (stream.emit message)

theorem Appends.after_change {α : Type} {operation rest : Loop → α × Loop} {loop : Loop}
    (changed : Loop) (config : changed.config = loop.config)
    (proposalId : changed.configProposalId = loop.configProposalId)
    (changes : ∀ stream, operation (loop.onStream stream) = rest (changed.onStream stream))
    (stream : changed.stream = loop.stream) (later : Appends rest changed) :
    Appends operation loop := by
  obtain ⟨laterConfig, laterId, messages, offlines, outcome⟩ := later
  have own : operation loop = rest changed := by
    have same := changes loop.stream
    rwa [onStream_self, ← stream, onStream_self] at same
  refine ⟨by rw [own, laterConfig, config], by rw [own, laterId, proposalId], messages, offlines,
    fun stream => ?_⟩
  rw [changes, own]
  exact outcome stream

/-- The result is only mapped. -/
theorem Appends.map {α β : Type} {operation : Loop → α × Loop} {loop : Loop} (change : α → β)
    (appends : Appends operation loop) :
    Appends (fun loop => (change (operation loop).1, (operation loop).2)) loop := by
  obtain ⟨config, proposalId, messages, offlines, outcome⟩ := appends
  refine ⟨config, proposalId, messages, offlines, fun stream => ?_⟩
  dsimp only
  rw [outcome]

/-- `judge` once the backtests have been announced. -/
def judgeTested (runtime : Runtime) (call : EvolveCall) (proposal : Proposal)
    (candidate : CognitiveConfig) (backtests : Backtests) (tested : Loop) :
    Except Raised EvolveResult × Loop :=
  match tested.challenge runtime proposal backtests with
  | .error error => (.error error, tested)
  | .ok verdict =>
      (.ok (settle runtime call proposal candidate backtests verdict tested).1,
        (settle runtime call proposal candidate backtests verdict tested).2)

theorem appends_judge (proposal : Proposal) (candidate : CognitiveConfig) (loop : Loop) :
    Appends (judge runtime call proposal candidate) loop := by
  have again (stream : EventStream) : runBacktests runtime call (loop.onStream stream).config
      candidate = runBacktests runtime call loop.config candidate := rfl
  cases tests : runBacktests runtime call loop.config candidate with
  | error error =>
      refine appends_stop loop (.error error) rfl rfl fun stream => ?_
      rw [judge, again, tests]
  | ok backtests =>
      refine Appends.after_emit (backtestMessage proposal backtests)
        (judgeTested runtime call proposal candidate backtests)
        (by simp [backtestMessage, gitopsMessage, EventType.Offline]) (fun stream => ?_) ?_
      · rw [judge, again, tests]
        rfl
      · have anew (tested : Loop) (stream : EventStream) :
            (tested.onStream stream).challenge runtime proposal backtests =
              tested.challenge runtime proposal backtests := rfl
        cases challenged :
            (loop.emit (backtestMessage proposal backtests)).challenge runtime proposal backtests with
        | error error =>
            refine appends_stop (loop.emit (backtestMessage proposal backtests)) (.error error) rfl
              rfl fun stream => ?_
            rw [judgeTested, anew, challenged]
        | ok verdict =>
            refine Appends.after_change (loop.emit (backtestMessage proposal backtests)) rfl rfl
              (fun stream => ?_) rfl
              ((appends_settle runtime call proposal candidate backtests verdict _).map .ok)
            rw [judgeTested, anew, challenged]

theorem appends_pursue (proposal : Proposal) (loop : Loop) :
    Appends (pursue runtime call proposal) loop := by
  have again (stream : EventStream) : applyProposalToConfig runtime (loop.onStream stream).config
      proposal = applyProposalToConfig runtime loop.config proposal := rfl
  rcases applied : applyProposalToConfig runtime loop.config proposal with error | ⟨_ | candidate⟩
  · refine appends_stop
      { loop with queue := ProposalQueue.add loop.queue proposal .backtesting } (.error error) rfl
      rfl fun stream => ?_
    rw [pursue, again, applied]
    rfl
  · refine appends_stop
      { loop with
        governor := loop.governor.recordOutcome proposal false
        queue := ProposalQueue.update proposal.proposalId
          (fun entry => { entry with status := .rejected })
          (ProposalQueue.add loop.queue proposal .backtesting) }
      (.ok (.rejected proposal "proposal does not map to a valid config")) rfl rfl fun stream => ?_
    rw [pursue, again, applied]
    rfl
  · refine Appends.after_change
      { loop with queue := ProposalQueue.add loop.queue proposal .backtesting } rfl rfl
      (fun stream => ?_) rfl (appends_judge runtime call proposal candidate _)
    rw [pursue, again, applied]
    rfl

/-- `consider` once the proposal has been announced. -/
def considerAnnounced (runtime : Runtime) (call : EvolveCall) (proposal : Proposal)
    (announced : Loop) : Except Raised EvolveResult × Loop :=
  match announced.governor.admitProposal runtime proposal with
  | (.error error, governor) => (.error error, { announced with governor })
  | (.ok (admitted, reason), governor) =>
      if admitted then pursue runtime call proposal { announced with governor }
      else (.ok (.blocked proposal reason), refuse proposal reason { announced with governor })

theorem appends_consider (proposal : Proposal) (loop : Loop) :
    Appends (consider runtime call proposal) loop := by
  refine Appends.after_emit
    { kind := .proposal, payload := proposal.asDict, source := "proposal_agent" }
    (considerAnnounced runtime call proposal) (by simp [EventType.Offline]) (fun _ => rfl) ?_
  generalize loop.emit
    { kind := .proposal, payload := proposal.asDict, source := "proposal_agent" } = announced
  have again (stream : EventStream) :
      (announced.onStream stream).governor.admitProposal runtime proposal =
        announced.governor.admitProposal runtime proposal := rfl
  rcases admission : announced.governor.admitProposal runtime proposal with
    ⟨error | ⟨admitted, reason⟩, governor⟩
  · refine appends_stop { announced with governor } (.error error) rfl rfl fun stream => ?_
    rw [considerAnnounced, again, admission]
    rfl
  · have outcome : ∀ stream,
        considerAnnounced runtime call proposal (announced.onStream stream) =
        if admitted then pursue runtime call proposal ({ announced with governor }.onStream stream)
        else (.ok (.blocked proposal reason),
          (refuse proposal reason { announced with governor }).onStream stream) := by
      intro stream
      rw [considerAnnounced, again, admission]
      rfl
    cases admitted with
    | true =>
        exact Appends.after_change { announced with governor } rfl rfl
          (fun stream => (outcome stream).trans (if_pos rfl)) rfl
          (appends_pursue runtime call proposal { announced with governor })
    | false =>
        exact appends_stop _ _ (by rfl) (by rfl)
          fun stream => (outcome stream).trans (if_neg Bool.false_ne_true)

/-- One operation and then another that depends on its result. -/
theorem Appends.andThen {α β : Type} {operation : Loop → α × Loop} {loop : Loop}
    (first : Appends operation loop) (rest : α → Loop → β × Loop)
    (later : Appends (rest (operation loop).1) (operation loop).2) :
    Appends (fun loop => rest (operation loop).1 (operation loop).2) loop := by
  obtain ⟨config, proposalId, messages, offlines, outcome⟩ := first
  obtain ⟨laterConfig, laterId, laterMessages, laterOfflines, laterOutcome⟩ := later
  refine ⟨laterConfig.trans config, laterId.trans proposalId, messages ++ laterMessages, ?_,
    fun stream => ?_⟩
  · intro message member
    rcases List.mem_append.mp member with member | member
    · exact offlines message member
    · exact laterOfflines message member
  · dsimp only
    rw [outcome, EventStream.emitAll_append]
    exact laterOutcome (stream.emitAll messages)

/-- `evolve` once it has learned. -/
def evolveLearned (runtime : Runtime) (call : EvolveCall) (observations : List Observation)
    (learned : Loop) : Except Raised (Option EvolveResult) × Loop :=
  match call.propose observations learned.config learned.scorecard with
  | .error error => (.error error, learned)
  | .ok none => (.ok none, learned)
  | .ok (some proposal) => ((consider runtime call proposal learned).1.map some,
      (consider runtime call proposal learned).2)

theorem appends_evolve (loop : Loop) : Appends (evolve runtime call) loop := by
  refine Appends.andThen (appends_learn runtime loop) (evolveLearned runtime call) ?_
  generalize (loop.learn runtime).1 = observations
  generalize (loop.learn runtime).2 = learned
  have again (stream : EventStream) :
      call.propose observations (learned.onStream stream).config
          (learned.onStream stream).scorecard =
        call.propose observations learned.config learned.scorecard := rfl
  rcases proposed : call.propose observations learned.config learned.scorecard with
    error | ⟨_ | proposal⟩
  · refine appends_stop learned (.error error) rfl rfl fun stream => ?_
    rw [evolveLearned, again, proposed]
  · refine appends_stop learned (.ok none) rfl rfl fun stream => ?_
    rw [evolveLearned, again, proposed]
  · refine Appends.after_change learned rfl rfl (fun stream => ?_) rfl
      ((appends_consider runtime call proposal learned).map fun result => result.map some)
    rw [evolveLearned, again, proposed]

/-! ## Closed trades -/

theorem appends_gradeClosed (traceId : String) (outcome : TradeOutcome)
    (decision breakdown : Payload) (decisionScore : ℚ) (loop : Loop) :
    Appends (gradeClosed runtime traceId outcome decision breakdown decisionScore) loop := by
  cases attributed : attributePnl runtime breakdown outcome.realizedPnl with
  | error error =>
      refine appends_stop loop (.error error) rfl rfl fun stream => ?_
      simp only [gradeClosed, attributed]
  | ok attribution =>
      generalize chosen : (if ((decision.lookup "action").getD .none).truthy then
        (decision.lookup "action").getD .none else .str outcome.side) = action
      cases regret : counterfactual action outcome.realizedPnlPct outcome.side with
      | error error =>
          refine appends_emits
            { loop with
              importance := loop.importance.update attribution (sign outcome.realizedPnl) }
            (.error error)
            [learningMessage .attribution attribution.asDict traceId,
              learningMessage .grade (gradeTrade runtime traceId decisionScore outcome).asDict
                traceId] ?_ rfl rfl fun stream => ?_
          · simp only [List.mem_cons, List.not_mem_nil, or_false]
            rintro message (rfl | rfl) <;> simp [learningMessage, EventType.Offline]
          · simp only [gradeClosed, attributed, chosen, regret]
            rfl
      | ok result =>
          refine appends_emits
            { loop with
              importance := loop.importance.update attribution (sign outcome.realizedPnl)
              drift := observeTrade loop.drift
                (gradeTrade runtime traceId decisionScore outcome) result outcome }
            (.ok ⟨attribution, gradeTrade runtime traceId decisionScore outcome, result⟩)
            [learningMessage .attribution attribution.asDict traceId,
              learningMessage .grade (gradeTrade runtime traceId decisionScore outcome).asDict
                traceId,
              learningMessage .counterfactual result.asDict traceId] ?_ rfl rfl fun stream => ?_
          · simp only [List.mem_cons, List.not_mem_nil, or_false]
            rintro message (rfl | rfl | rfl) <;> simp [learningMessage, EventType.Offline]
          · simp only [gradeClosed, attributed, chosen, regret]
            rfl

theorem outcomeMessage_offline {traceId : String} {decision : Payload} {outcome : TradeOutcome}
    {loop : Loop} {message : Message}
    (built : loop.outcomeMessage runtime traceId decision outcome = .ok message) :
    message.kind.Offline := by
  rw [outcomeMessage] at built
  cases version : runtime.toInt
      ((decision.lookup "config_version").getD (.int loop.config.version)) with
  | error error =>
      rw [version] at built
      cases built
  | ok version' =>
      rw [version] at built
      obtain rfl := Except.ok.inj built
      simp [EventType.Offline]

theorem readDecision_offline {traceId : String} {decision : Payload} {outcome : TradeOutcome}
    {loop : Loop} {breakdown : Payload} {decisionScore : ℚ} {message : Message}
    (read : loop.readDecision runtime traceId outcome decision =
      .ok (breakdown, decisionScore, message)) : message.kind.Offline := by
  rw [readDecision] at read
  cases first : breakdownOf (decision.lookup "breakdown") with
  | error error =>
      rw [first] at read
      cases read
  | ok entries =>
      cases second : floatField runtime decision "score" 0 with
      | error error =>
          rw [first, second] at read
          cases read
      | ok score =>
          cases third : loop.outcomeMessage runtime traceId decision outcome with
          | error error =>
              rw [first, second, third] at read
              cases read
          | ok built =>
              rw [first, second, third] at read
              obtain ⟨-, same⟩ := Prod.mk.inj (Except.ok.inj read)
              rw [← (Prod.mk.inj same).2]
              exact outcomeMessage_offline runtime third

theorem appends_closeWith (traceId : String) (outcome : TradeOutcome) (decision : Payload)
    (loop : Loop) : Appends (closeWith runtime traceId outcome decision) loop := by
  have again (stream : EventStream) :
      (loop.onStream stream).readDecision runtime traceId outcome decision =
        loop.readDecision runtime traceId outcome decision := rfl
  rcases read : loop.readDecision runtime traceId outcome decision with
    error | ⟨breakdown, decisionScore, message⟩
  · refine appends_stop loop (.error error) rfl rfl fun stream => ?_
    rw [closeWith, again, read]
  · refine Appends.after_emit message
      (gradeClosed runtime traceId outcome decision breakdown decisionScore)
      (readDecision_offline runtime read) (fun stream => ?_)
      (appends_gradeClosed runtime traceId outcome decision breakdown decisionScore _)
    rw [closeWith, again, read]

/-- A closed trade appends the same events to any stream that answers its look-up alike. -/
theorem closeTrade_onStream (traceId : String) (outcome : TradeOutcome) (loop : Loop) :
    ∃ messages : List Message, (∀ message ∈ messages, message.kind.Offline) ∧
      ∀ stream, (loop.onStream stream).decisionFor traceId = loop.decisionFor traceId →
        (loop.onStream stream).closeTrade runtime traceId outcome =
          ((loop.closeTrade runtime traceId outcome).1,
            (loop.closeTrade runtime traceId outcome).2.onStream (stream.emitAll messages)) := by
  obtain ⟨-, -, messages, offline, same⟩ :=
    appends_closeWith runtime traceId outcome ((loop.decisionFor traceId).getD []) loop
  refine ⟨messages, offline, fun stream found => ?_⟩
  rw [closeTrade, found]
  exact same stream

/-! ## Operations -/

/-- An operation appends the same events to every stream with the same retained events. -/
theorem perform_onStream (operation : LoopOp) (loop : Loop) :
    ∃ messages : List Message,
      (∀ stream : EventStream, stream.events = loop.stream.events →
        (loop.onStream stream).perform runtime operation =
          (loop.perform runtime operation).onStream (stream.emitAll messages)) ∧
      ((∃ call, operation = .step call ∧ messages = loop.stepMessages call) ∨
        ∀ message ∈ messages, message.kind.Offline) := by
  have appended : ∀ {α : Type} {operation : Loop → α × Loop}, Appends operation loop →
      ∃ messages : List Message, (∀ message ∈ messages, message.kind.Offline) ∧
        ∀ stream, (operation (loop.onStream stream)).2 =
          (operation loop).2.onStream (stream.emitAll messages) := by
    rintro α operation ⟨-, -, messages, offline, same⟩
    exact ⟨messages, offline, fun stream => congrArg Prod.snd (same stream)⟩
  cases operation with
  | step call =>
      refine ⟨loop.stepMessages call, fun stream held => ?_, Or.inl ⟨call, rfl, rfl⟩⟩
      have traceId :
          (loop.onStream stream).traceIdOf call.traceId = loop.traceIdOf call.traceId := by
        simp only [traceIdOf]
        rw [← held]
        rfl
      have messages : (loop.onStream stream).stepMessages call = loop.stepMessages call := by
        simp only [stepMessages, decisionMessages, stepResult]
        rw [traceId]
        rfl
      change (loop.onStream stream).emitAll ((loop.onStream stream).stepMessages call) = _
      rw [messages]
      rfl
  | closeTrade traceId outcome =>
      obtain ⟨messages, offline, same⟩ := closeTrade_onStream runtime traceId outcome loop
      refine ⟨messages, fun stream held => ?_, Or.inr offline⟩
      refine congrArg Prod.snd (same stream ?_)
      simp only [decisionFor]
      rw [← held]
      rfl
  | learn =>
      obtain ⟨messages, offline, same⟩ := appended (appends_learn runtime loop)
      exact ⟨messages, fun stream _ => same stream, Or.inr offline⟩
  | evolve call =>
      obtain ⟨messages, offline, same⟩ := appended (appends_evolve runtime call loop)
      exact ⟨messages, fun stream _ => same stream, Or.inr offline⟩
  | merge call =>
      refine ⟨[_], fun stream _ => rfl, Or.inr ?_⟩
      simp [configVersionMessage, EventType.Offline]
  | detectDrift =>
      obtain ⟨messages, offline, same⟩ := appended (appends_detectDrift loop)
      exact ⟨messages, fun stream _ => same stream, Or.inr offline⟩

/-- Events of one operation: those that a subscriber registered just before it is called with. -/
def eventsOf (loop : Loop) (operation : LoopOp) : List Event :=
  (((loop.onStream loop.stream.subscribe).perform runtime operation).stream.subscribers).getLastD []

variable {runtime} in
theorem eventsOf_eq {loop : Loop} {operation : LoopOp}
    {messages : List Message}
    (stream : ((loop.onStream loop.stream.subscribe).perform runtime operation).stream =
      loop.stream.subscribe.emitAll messages) :
    loop.eventsOf runtime operation = numbered loop.stream.emitted messages := by
  have emitted : loop.stream.subscribe.emitted = loop.stream.emitted := rfl
  rw [eventsOf]
  rw [stream, EventStream.subscribers_emitAll, emitted, EventStream.subscribe, List.map_append]
  simp

theorem config_perform (operation : LoopOp) (loop : Loop) :
    (∃ call, operation = .merge call ∧ (loop.perform runtime operation).config = call.candidate) ∨
      (loop.perform runtime operation).config = loop.config ∧
        (loop.perform runtime operation).configProposalId = loop.configProposalId := by
  cases operation with
  | step call => exact Or.inr ⟨rfl, rfl⟩
  | closeTrade traceId outcome =>
      obtain ⟨config, proposalId, -⟩ :=
        appends_closeWith runtime traceId outcome ((loop.decisionFor traceId).getD []) loop
      exact Or.inr ⟨config, proposalId⟩
  | learn => exact Or.inr ⟨rfl, rfl⟩
  | evolve call =>
      obtain ⟨config, proposalId, -⟩ := appends_evolve runtime call loop
      exact Or.inr ⟨config, proposalId⟩
  | merge call => exact Or.inl ⟨call, rfl, rfl⟩
  | detectDrift => exact Or.inr ⟨rfl, rfl⟩

/-! ## Messages of a run -/

def messagesOf (loop : Loop) (operation : LoopOp) : List Message :=
  (loop.eventsOf runtime operation).map (·.toMessage)

/-- Every operation appends its messages, and the ones outside of a step are offline. -/
theorem messagesOf_spec (loop : Loop) (operation : LoopOp) :
    (loop.perform runtime operation).stream =
        loop.stream.emitAll (loop.messagesOf runtime operation) ∧
      loop.eventsOf runtime operation =
        numbered loop.stream.emitted (loop.messagesOf runtime operation) ∧
      ((∃ call, operation = .step call ∧
          loop.messagesOf runtime operation = loop.stepMessages call) ∨
        ∀ message ∈ loop.messagesOf runtime operation, message.kind.Offline) := by
  obtain ⟨messages, same, shape⟩ := perform_onStream runtime operation loop
  have told := eventsOf_eq (congrArg (·.stream) (same loop.stream.subscribe rfl))
  have said : loop.messagesOf runtime operation = messages := by
    rw [messagesOf, told, map_message_numbered]
  rw [said]
  exact ⟨congrArg (·.stream) (same loop.stream rfl), told, shape⟩

theorem eventsOf_step (loop : Loop) (call : StepCall) :
    loop.eventsOf runtime (.step call) =
      numbered loop.stream.emitted (loop.stepMessages call) :=
  eventsOf_eq rfl

theorem messagesOf_step (loop : Loop) (call : StepCall) :
    loop.messagesOf runtime (.step call) = loop.stepMessages call := by
  rw [messagesOf, eventsOf_step, map_message_numbered]

def messagesDuring (loop : Loop) : List LoopOp → List Message
  | [] => []
  | operation :: rest =>
      loop.messagesOf runtime operation ++ messagesDuring (loop.perform runtime operation) rest

theorem messagesDuring_append (loop : Loop) (first second : List LoopOp) :
    loop.messagesDuring runtime (first ++ second) =
      loop.messagesDuring runtime first ++
        (loop.run runtime first).messagesDuring runtime second := by
  induction first generalizing loop with
  | nil => rfl
  | cons operation rest induction =>
      rw [List.cons_append, messagesDuring, messagesDuring, induction, List.append_assoc]
      rfl

theorem stream_run (loop : Loop) (operations : List LoopOp) :
    (loop.run runtime operations).stream =
      loop.stream.emitAll (loop.messagesDuring runtime operations) := by
  induction operations generalizing loop with
  | nil => rfl
  | cons operation rest induction =>
      rw [messagesDuring, EventStream.emitAll_append, ← (messagesOf_spec runtime loop operation).1]
      exact induction (loop.perform runtime operation)

end Loop

/-! ## Gated executions -/

/-- The event is a filled execution. -/
def Event.IsFilled (event : Event) : Prop :=
  event.kind = .execution ∧ event.payload.lookup "status" = some (.str "filled")

/-- The gate that a configuration opens to the trade of a step. -/
structure OpenGate (config : CognitiveConfig) (call : StepCall) (gate execution : Event) :
    Prop where
  kind : gate.kind = .riskGate
  sameStep : gate.traceId = execution.traceId
  earlier : gate.seq < execution.seq
  payload : gate.payload =
    (evaluateRisk (decideAction (call.specialists.features call.market) config) config
      call.positionPct call.currentExposurePct call.dayPnlPct).asDict
  allowed : gate.payload.lookup "allowed" = some (.bool true)
  limits : WithinLimits config call.positionPct call.currentExposurePct call.dayPnlPct

theorem openGate_of_filled {runtime : Runtime} {loop : Loop} {call : StepCall} {execution : Event}
    (member : execution ∈ loop.eventsOf runtime (.step call)) (filled : execution.IsFilled) :
    ∃ gate ∈ loop.eventsOf runtime (.step call), OpenGate loop.config call gate execution := by
  rw [Loop.eventsOf_step, Loop.stepMessages, numbered_append] at member ⊢
  rcases List.mem_append.mp member with agent | member
  · exact absurd filled.1 (offline_of_mem_messages (mem_of_mem_numbered agent)).2.2
  · generalize loop.stream.emitted + _ = start at member ⊢
    simp only [Loop.decisionMessages, numbered, List.mem_cons, List.not_mem_nil, or_false] at member
    rcases member with rfl | rfl | rfl
    · cases filled.1
    · cases filled.1
    · have status : (loop.stepResult call).execution.status = "filled" := by
        simpa [Loop.withLineage, Execution.asDict, List.lookup_cons] using filled.2
      have allowed : (loop.stepResult call).gate.allowed = true := allowed_of_filled status
      refine ⟨_, List.mem_append_right _ (List.mem_cons_of_mem _ (List.mem_cons_self ..)), rfl, rfl,
        Nat.lt_succ_self _, rfl, ?_, ?_⟩
      · simp [RiskGate.asDict, List.lookup_cons, allowed]
      · exact ((evaluateRisk_allowed_iff _ _ _ _ _).mp allowed).2

/-- In every run, a filled execution follows the open gate of its own step, and an operation that
changes the configuration is a merge. -/
theorem gated_run (runtime : Runtime) (start : Loop) (operations : List LoopOp)
    (operation : LoopOp) :
    let active := start.run runtime operations
    (∀ execution ∈ active.eventsOf runtime operation, execution.IsFilled →
      ∃ call, operation = .step call ∧ ∃ gate ∈ active.eventsOf runtime operation,
        OpenGate active.config call gate execution) ∧
      ((active.perform runtime operation).config ≠ active.config →
        ∃ call, operation = .merge call) := by
  intro active
  refine ⟨fun execution member filled => ?_, fun changed => ?_⟩
  · obtain ⟨-, told, ⟨call, rfl, -⟩ | offline⟩ := Loop.messagesOf_spec runtime active operation
    · exact ⟨call, rfl, openGate_of_filled member filled⟩
    · rw [told] at member
      exact absurd filled.1 (offline _ (mem_of_mem_numbered member)).2.2
  · rcases Loop.config_perform runtime operation active with ⟨call, merge, -⟩ | ⟨same, -⟩
    · exact ⟨call, merge⟩
    · exact absurd same changed

end TradingControl.Cognitive
