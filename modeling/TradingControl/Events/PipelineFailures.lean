import TradingControl.Events.PipelineHandled

/-!
# What stops the broadcast pipeline

The loop of the pipeline has no exception handler of its own.  It goes on whatever persistence, an
agent's update, the broadcast of an event, an append or an acknowledgement raises; three things end
it for good: a retry count that is no integer, a dead letter that Redis does not take, and the
broadcast of the notice about a dead letter.
-/

namespace TradingControl.Events

open Effects Python

/-! ## Failing calls -/

/-- The calls that raise while messages are worked on. -/
structure Failures where
  /-- Deliveries that are not taken up yet. -/
  waiting : List (String × Message) := []
  /-- The delivery that was taken up last. -/
  current : List (String × Message) := []
  /-- Deliveries while which an agent's update or a broadcast raised. -/
  disturbed : List (String × Message) := []
  /-- A call of the exception handler raised. -/
  unhandled : Bool := false

namespace Failures

/-- A call for the current delivery, which raises or does not. -/
def disturb (failures : Failures) (raises : Option String) : Failures :=
  match raises with
  | some _ => { failures with disturbed := failures.disturbed ++ failures.current }
  | none => failures

end Failures

/-- Watch the calls that raise. -/
def watchFailures : Observer pipelineSignature PipelineChoice Failures
  | failures, .consume stream, choice =>
      { failures with waiting := choice.messages.map (Prod.mk stream) }
  | failures, .isProcessed _, _ =>
      { failures with current := failures.waiting.take 1, waiting := failures.waiting.drop 1 }
  | failures, .updateAgent _ _ _ _, choice => failures.disturb choice.raises
  | failures, .broadcast (.dlqEvent _ _ _ _), choice =>
      { failures with unhandled := failures.unhandled || choice.raises.isSome }
  | failures, .broadcast _, choice => failures.disturb choice.raises
  | failures, .hset _, choice =>
      { failures with unhandled := failures.unhandled || decide (choice.reply ≠ .answered) }
  | failures, _, _ => failures

/-- Runs of the pipeline with any choices, whose failing calls are watched. -/
abbrev failing : Transformer pipelineSignature PipelineFailure (PipelineWorld × Failures) :=
  pipelineHandler.observed watchFailures fun _ _ => True

namespace EventPipeline

variable (pipeline : EventPipeline)

/-- The event of a delivery was broadcast; one whose id is that of another delivery may be skipped
for the event of that one. -/
inductive Sent (history : List Happening) (stream : String) (message : Message) : Prop where
  | broadcast (eventType ts : String)
      (sent : .broadcast (.event stream (pipeline.msgId message) eventType message.data ts) ∈
        history)
  | duplicate (source : String) (other : Message) (eventType ts : String)
      (differs : (source, other) ≠ (stream, message))
      (delivered : .delivered source other ∈ history)
      (sameId : pipeline.msgId other = pipeline.msgId message)
      (sent : .broadcast (.event source (pipeline.msgId other) eventType other.data ts) ∈ history)

/-- A run raises nothing, and every delivery that no failing call disturbed is broadcast. -/
def NeverStops (rounds : ℕ) (choices : ℕ → PipelineChoice) : Prop :=
  ((pipeline.run rounds).exec pipelineHandler choices {}).1 = .ok () ∧
    ∀ stream message,
      .delivered stream message ∈
        ((pipeline.run rounds).exec pipelineHandler choices {}).2.history →
      (stream, message) ∉
        ((pipeline.run rounds).observe pipelineHandler watchFailures choices {} {}).disturbed →
      pipeline.Sent ((pipeline.run rounds).exec pipelineHandler choices {}).2.history stream message

/-- Every delivered event has a retry count that is an integer, and neither a dead letter nor the
notice about it fails. -/
def Absorbed (rounds : ℕ) (choices : ℕ → PipelineChoice) : Prop :=
  (∀ stream message,
      .delivered stream message ∈
        ((pipeline.run rounds).exec pipelineHandler choices {}).2.history →
      ∃ retryCount, pipeline.retryCount message.data = .ok retryCount) ∧
    ((pipeline.run rounds).observe pipelineHandler watchFailures choices {} {}).unhandled = false

end EventPipeline

variable {pipeline : EventPipeline}

theorem EventPipeline.Sent.mono {before later : List Happening} {stream : String}
    {message : Message} (sent : pipeline.Sent before stream message) (kept : before ⊆ later) :
    pipeline.Sent later stream message := by
  cases sent with
  | broadcast eventType ts sent => exact .broadcast eventType ts (kept sent)
  | duplicate source other eventType ts differs delivered sameId sent =>
      exact .duplicate source other eventType ts differs (kept delivered) sameId (kept sent)

/-! ## What the loop keeps -/

/-- Every delivery but the open ones is settled: its retry count is an integer, and its event is
sent unless a failing call disturbed it. -/
structure Going (pipeline : EventPipeline) (opened : List (String × Message))
    (state : PipelineWorld × Failures) : Prop where
  handled : state.2.unhandled = false
  settled : ∀ stream message, .delivered stream message ∈ state.1.history →
    (stream, message) ∈ opened ∨
      (∃ retryCount, pipeline.retryCount message.data = .ok retryCount) ∧
        ((stream, message) ∈ state.2.disturbed ∨ pipeline.Sent state.1.history stream message)
  remembered : ∀ msgId ∈ state.1.processedMsgIds, ∃ source other eventType ts,
    .delivered source other ∈ state.1.history ∧ pipeline.msgId other = msgId ∧
      .broadcast (.event source (pipeline.msgId other) eventType other.data ts) ∈ state.1.history

/-- Something ends the loop. -/
def Stopping (pipeline : EventPipeline) (state : PipelineWorld × Failures) : Prop :=
  state.2.unhandled = true ∨ ∃ stream message error,
    .delivered stream message ∈ state.1.history ∧ pipeline.retryCount message.data = .error error

/-- The deliveries that are waiting are the open ones. -/
structure Ready (pipeline : EventPipeline) (opened : List (String × Message))
    (state : PipelineWorld × Failures) : Prop extends Going pipeline opened state where
  waiting : state.2.waiting = opened
  delivered : ∀ delivery ∈ opened, .delivered delivery.1 delivery.2 ∈ state.1.history

/-- One delivery is being worked on, the others wait. -/
structure Working (pipeline : EventPipeline) (stream : String) (message : Message)
    (rest : List (String × Message)) (state : PipelineWorld × Failures) : Prop
    extends Going pipeline ((stream, message) :: rest) state where
  current : state.2.current = [(stream, message)]
  waiting : state.2.waiting = rest
  delivered : ∀ delivery ∈ (stream, message) :: rest,
    .delivered delivery.1 delivery.2 ∈ state.1.history

variable {opened rest : List (String × Message)} {world : PipelineWorld} {failures : Failures}
  {state : PipelineWorld × Failures} {stream : String} {message : Message}

theorem Going.record (going : Going pipeline opened (world, failures)) {happening : Happening}
    (other : ∀ stream message, happening ≠ .delivered stream message) :
    Going pipeline opened (world.record happening, failures) where
  handled := going.handled
  settled stream message member := by
    have earlier : .delivered stream message ∈ world.history := by
      rcases List.mem_append.mp member with old | new
      · exact old
      · exact absurd (List.mem_singleton.mp new).symm (other stream message)
    rcases going.settled stream message earlier with isOpen | ⟨counted, disturbed | sent⟩
    · exact .inl isOpen
    · exact .inr ⟨counted, .inl disturbed⟩
    · exact .inr ⟨counted, .inr (sent.mono (List.subset_append_left _ _))⟩
  remembered msgId member := by
    obtain ⟨source, other, eventType, ts, delivered, sameId, sent⟩ := going.remembered msgId member
    exact ⟨source, other, eventType, ts, List.mem_append_left _ delivered, sameId,
      List.mem_append_left _ sent⟩

theorem Ready.record (ready : Ready pipeline opened (world, failures)) {happening : Happening}
    (other : ∀ stream message, happening ≠ .delivered stream message) :
    Ready pipeline opened (world.record happening, failures) where
  toGoing := ready.toGoing.record other
  waiting := ready.waiting
  delivered delivery member := List.mem_append_left _ (ready.delivered delivery member)

theorem Working.record (working : Working pipeline stream message rest (world, failures))
    {happening : Happening} (other : ∀ stream message, happening ≠ .delivered stream message) :
    Working pipeline stream message rest (world.record happening, failures) where
  toGoing := working.toGoing.record other
  current := working.current
  waiting := working.waiting
  delivered delivery member := List.mem_append_left _ (working.delivered delivery member)

/-- The delivery that is worked on is sent, or a failing call has disturbed it. -/
theorem Working.settle (working : Working pipeline stream message rest state) {retryCount : ℤ}
    (counted : pipeline.retryCount message.data = .ok retryCount)
    (outcome : (stream, message) ∈ state.2.disturbed ∨
      pipeline.Sent state.1.history stream message) :
    Ready pipeline rest state where
  handled := working.handled
  settled source other member := by
    rcases working.settled source other member with isOpen | settled
    · rcases List.mem_cons.mp isOpen with same | isOpen
      · obtain ⟨rfl, rfl⟩ := Prod.mk.inj same
        exact .inr ⟨⟨retryCount, counted⟩, outcome⟩
      · exact .inl isOpen
    · exact .inr settled
  remembered := working.remembered
  waiting := working.waiting
  delivered delivery member := working.delivered delivery (List.mem_cons_of_mem _ member)

/-- A call for the delivery raises. -/
theorem Working.disturb (working : Working pipeline stream message rest (world, failures))
    {retryCount : ℤ} (counted : pipeline.retryCount message.data = .ok retryCount) (text : String) :
    Ready pipeline rest (world, failures.disturb (some text)) := by
  have disturbed : Working pipeline stream message rest (world, failures.disturb (some text)) :=
    { handled := working.handled
      settled := fun source other member => by
        rcases working.settled source other member with isOpen | ⟨counted, disturbed | sent⟩
        · exact .inl isOpen
        · exact .inr ⟨counted, .inl (List.mem_append_left _ disturbed)⟩
        · exact .inr ⟨counted, .inr sent⟩
      remembered := working.remembered
      current := working.current
      waiting := working.waiting
      delivered := working.delivered }
  refine disturbed.settle counted (.inl ?_)
  have current : failures.current = [(stream, message)] := working.current
  simp [Failures.disturb, current]

theorem Ready.remember (ready : Ready pipeline opened (world, failures)) {source : String}
    {other : Message} {eventType ts : String} (delivered : .delivered source other ∈ world.history)
    (sent : .broadcast (.event source (pipeline.msgId other) eventType other.data ts) ∈
      world.history) :
    Ready pipeline opened
      ({ world with processedMsgIds :=
          rememberProcessedMsgId world.processedMsgIds (pipeline.msgId other) }, failures) where
  handled := ready.handled
  settled := ready.settled
  remembered msgId member := by
    rcases mem_of_mem_rememberProcessedMsgId member with old | rfl
    · exact ready.remembered msgId old
    · exact ⟨source, other, eventType, ts, delivered, rfl, sent⟩
  waiting := ready.waiting
  delivered := ready.delivered

/-! ## Calls that the loop survives -/

theorem Ready.wp_acknowledge (ready : Ready pipeline opened state) {redisId : String}
    {post : Except PipelineFailure Unit → PipelineWorld × Failures → Prop}
    (finish : ∀ after, Ready pipeline opened after → state.1.history ⊆ after.1.history →
      post (.ok ()) after) :
    (EventPipeline.acknowledge stream redisId).wp failing post state := by
  rw [EventPipeline.acknowledge, Program.bind_eq_bind, Program.wp_bind, Program.wp_attempt, pipe,
    Program.wp_perform]
  intro choice _
  obtain ⟨world, failures⟩ := state
  have acknowledged := @Ready.record _ _ _ _ ready (.acknowledged stream redisId) (by simp)
  simp only [pipelineHandler, redisReply]
  cases choice.reply with
  | answered => exact finish _ acknowledged (List.subset_append_left _ _)
  | lost => exact finish _ ready (List.Subset.refl _)
  | unacknowledged => exact finish _ acknowledged (List.subset_append_left _ _)

/-- An append raises nothing. -/
theorem Ready.wp_publish (ready : Ready pipeline opened state) (event : Dict String Value)
    {post : Except PipelineFailure (Option String) → PipelineWorld × Failures → Prop}
    (finish : ∀ published after, Ready pipeline opened after → post (.ok published) after) :
    (pipeline.publish stream event).wp failing post state := by
  rw [EventPipeline.publish, Program.bind_eq_bind, Program.wp_bind, pipe, Program.wp_perform]
  intro now _
  change Program.wp _ _ _ _
  rw [Program.bind_eq_bind, Program.wp_bind, Program.wp_attempt, pipe, Program.wp_perform]
  intro choice _
  obtain ⟨world, failures⟩ := state
  have appended := fun fields =>
    @Ready.record _ _ _ _ ready (.appended ⟨stream, fields⟩) (by simp)
  simp only [pipelineHandler, redisReply]
  cases choice.reply with
  | answered => exact finish _ _ (appended _)
  | lost => exact finish _ _ ready
  | unacknowledged => exact finish _ _ (appended _)

/-- An agent's update or a broadcast raises for the delivery, or the work on it goes on. -/
theorem Working.wp_trackAgent (working : Working pipeline stream message rest state)
    {retryCount : ℤ} (counted : pipeline.retryCount message.data = .ok retryCount)
    (event : Dict String Value) (eventType msgId : String) :
    (pipeline.trackAgent event eventType msgId).wp failing
      (Program.andThen (fun _ after => Working pipeline stream message rest after)
        fun _ after => Ready pipeline rest after) state := by
  simp only [EventPipeline.trackAgent]
  split
  · rw [Program.bind_eq_bind, Program.wp_bind, pipe, Program.wp_perform]
    intro update _
    obtain ⟨world, failures⟩ := state
    simp only [pipelineHandler, watchFailures]
    cases update.raises with
    | some text => exact working.disturb counted text
    | none =>
        rw [Program.andThen_ok, Program.bind_eq_bind, Program.wp_bind, pipe, Program.wp_perform]
        intro now _
        change Program.wp _ _ _ _
        rw [pipe, Program.wp_perform]
        intro choice _
        simp only [pipelineHandler, watchFailures]
        cases choice.raises with
        | some text => exact working.disturb counted text
        | none => exact working.record (by simp)
  · exact working

theorem Working.wp_prepare (working : Working pipeline stream message rest state)
    {retryCount : ℤ} (counted : pipeline.retryCount message.data = .ok retryCount)
    (eventType msgId ts : String) :
    (pipeline.prepare stream message eventType msgId ts).wp failing
      (Program.andThen (fun _ after => Working pipeline stream message rest after)
        fun _ after => Ready pipeline rest after) state := by
  have tracked : ∀ after, Working pipeline stream message rest after →
      (if pipeline.tracksAgents then pipeline.trackAgent message.data eventType msgId
        else .ret () : Piping Unit).wp failing
        (Program.andThen (fun _ after => Working pipeline stream message rest after)
          fun _ after => Ready pipeline rest after) after := by
    intro after working
    split
    · exact working.wp_trackAgent counted message.data eventType msgId
    · exact working
  have fed : ∀ wrote : Bool, (pipe .isDbAvailable >>= fun dbAvailable =>
      if !dbAvailable && !wrote then
        (pipe (.addEvent ⟨msgId, eventType, pipeline.textOr message.data "source" stream, ts⟩)).bind
          fun _ => if pipeline.tracksAgents then
            pipeline.trackAgent message.data eventType msgId else .ret ()
      else if pipeline.tracksAgents then
        pipeline.trackAgent message.data eventType msgId else .ret () : Piping Unit).wp failing
        (Program.andThen (fun _ after => Working pipeline stream message rest after)
          fun _ after => Ready pipeline rest after) state := by
    intro wrote
    rw [Program.bind_eq_bind, Program.wp_bind, pipe, Program.wp_perform]
    intro choice _
    change Program.wp _ _ _ _
    split
    · rw [Program.wp_bind, pipe, Program.wp_perform]
      exact fun choice _ => tracked _ working
    · exact tracked _ working
  -- what persistence raises is dropped
  rw [EventPipeline.prepare, Program.bind_eq_bind, Program.wp_bind,
    EventPipeline.persistBestEffort, Program.bind_eq_bind, Program.wp_bind, Program.wp_attempt,
    pipe, Program.wp_perform]
  intro choice _
  simp only [pipelineHandler]
  cases choice.raises with
  | some text => exact fed false
  | none => exact fed choice.wrote

/-- After `_process_message` the delivery is settled, whether or not it raises. -/
theorem Ready.wp_processMessage (ready : Ready pipeline ((stream, message) :: rest) state)
    {retryCount : ℤ} (counted : pipeline.retryCount message.data = .ok retryCount)
    (eventType ts : String) :
    (pipeline.processMessage stream message eventType (pipeline.msgId message) ts).wp failing
      (fun _ after => Ready pipeline rest after) state := by
  rw [EventPipeline.processMessage, Program.bind_eq_bind, Program.wp_bind, pipe,
    Program.wp_perform]
  intro choice _
  obtain ⟨world, failures⟩ := state
  have waiting : failures.waiting = (stream, message) :: rest := ready.waiting
  have working : Working pipeline stream message rest
      (world, watchFailures failures (.isProcessed (pipeline.msgId message)) choice) :=
    { ready with
      current := by simp [watchFailures, waiting]
      waiting := by simp [watchFailures, waiting] }
  change Program.wp _ (if decide (pipeline.msgId message ∈ world.processedMsgIds) then _ else _) _ _
  by_cases processed : pipeline.msgId message ∈ world.processedMsgIds
  · rw [if_pos (decide_eq_true processed)]
    obtain ⟨source, other, eventType, ts, delivered, sameId, sent⟩ :=
      ready.remembered _ processed
    have isSent : pipeline.Sent world.history stream message := by
      by_cases same : (source, other) = (stream, message)
      · obtain ⟨rfl, rfl⟩ := Prod.mk.inj same
        exact .broadcast eventType ts sent
      · exact .duplicate source other eventType ts same delivered sameId sent
    exact (working.settle counted (.inr isSent)).wp_acknowledge fun after ready _ => ready
  · rw [if_neg (by simpa using processed), Program.bind_eq_bind, Program.wp_bind]
    refine Program.wp_mono (Handler.observed_monotone _ _ _) ?_
      (working.wp_prepare counted eventType _ ts)
    rintro (failure | _) ⟨world, failures⟩ working
    · exact working
    rw [Program.andThen_ok] at working ⊢
    rw [Program.bind_eq_bind, Program.wp_bind, pipe, Program.wp_perform]
    intro choice _
    simp only [pipelineHandler, watchFailures]
    cases choice.raises with
    | some text => exact working.disturb counted text
    | none =>
        obtain ⟨happening, isHappening⟩ : ∃ happening, happening = Happening.broadcast
          (.event stream (pipeline.msgId message) eventType message.data ts) := ⟨_, rfl⟩
        rw [← isHappening]
        have recorded := @Working.record _ _ _ _ _ _ working happening (by simp [isHappening])
        have isLast : .broadcast (.event stream (pipeline.msgId message) eventType message.data
            ts) ∈ (world.record happening).history := by simp [PipelineWorld.record, isHappening]
        have sent := recorded.settle counted (.inr (.broadcast eventType ts isLast))
        have delivered := recorded.delivered (stream, message) List.mem_cons_self
        rw [Program.andThen_ok, Program.bind_eq_bind, Program.wp_bind]
        refine sent.wp_acknowledge fun after acknowledged kept => ?_
        rw [Program.andThen_ok, pipe, Program.wp_perform]
        exact fun choice _ => acknowledged.remember (kept delivered) (kept isLast)

/-! ## Calls that end the loop -/

/-- The exception handler raises where a dead letter, or the notice about it, fails. -/
theorem Ready.wp_handleFailure (ready : Ready pipeline opened state) (msgId : String)
    (retryCount : ℤ) (failure : PipelineFailure) :
    (pipeline.handleFailure stream message msgId retryCount failure).wp failing
      (Program.andThen (fun _ after => Ready pipeline opened after)
        fun _ after => Stopping pipeline after) state := by
  simp only [EventPipeline.handleFailure]
  split
  · rw [Program.bind_eq_bind, Program.wp_bind]
    refine ready.wp_publish _ fun published after ready => ?_
    exact ready.wp_acknowledge fun after ready _ => ready
  · rw [Program.bind_eq_bind, Program.wp_bind, pipe, Program.wp_perform]
    intro choice _
    obtain ⟨world, failures⟩ := state
    have handled : failures.unhandled = false := ready.handled
    have written := @Ready.record _ _ _ _ ready (.deadLettered ⟨stream, msgId, message.data,
      pipeline.errorText failure, retryCount + 1⟩) (by simp)
    simp only [pipelineHandler, redisReply, watchFailures]
    cases choice.reply with
    | lost => exact .inl (by simp)
    | unacknowledged => exact .inl (by simp)
    | answered =>
        rw [Program.andThen_ok, Program.bind_eq_bind, Program.wp_bind]
        have same : { failures with
            unhandled := failures.unhandled || decide (Reply.answered ≠ .answered) } =
          failures := by simp
        rw [same]
        refine written.wp_acknowledge fun after acknowledged _ => ?_
        rw [Program.andThen_ok, Program.bind_eq_bind, Program.wp_bind, pipe, Program.wp_perform]
        intro now _
        change Program.wp _ _ _ _
        rw [pipe, Program.wp_perform]
        intro choice _
        obtain ⟨world, failures⟩ := after
        simp only [pipelineHandler, watchFailures]
        cases choice.raises with
        | some text => exact .inl (by simp)
        | none => simpa using acknowledged.record (by simp)

/-- The next delivery is settled, or the loop ends. -/
theorem Ready.wp_processWithRetry (ready : Ready pipeline ((stream, message) :: rest) state) :
    (pipeline.processWithRetry stream message).wp failing
      (Program.andThen (fun _ after => Ready pipeline rest after)
        fun _ after => Stopping pipeline after) state := by
  have retrying : ∀ ts, (pipeline.processCounted stream message ts).wp failing
      (Program.andThen (fun _ after => Ready pipeline rest after)
        fun _ after => Stopping pipeline after) state := by
    intro ts
    rw [EventPipeline.processCounted]
    cases counted : pipeline.retryCount message.data with
    | error error =>
        exact .inr ⟨stream, message, error,
          ready.delivered (stream, message) List.mem_cons_self, counted⟩
    | ok retryCount =>
        rw [Program.wp_bind, Program.wp_attempt]
        refine Program.wp_mono (Handler.observed_monotone _ _ _) (fun outcome after ready => ?_)
          (ready.wp_processMessage counted _ ts)
        cases outcome with
        | ok _ => exact ready
        | error failure => exact ready.wp_handleFailure _ retryCount failure
  rw [EventPipeline.processWithRetry_eq]
  split
  · exact retrying _
  · rw [Program.wp_bind, pipe, Program.wp_perform]
    exact fun choice _ => retrying choice.now

theorem Ready.wp_processAll {messages : List Message}
    (ready : Ready pipeline (messages.map (Prod.mk stream)) state) :
    (pipeline.processAll stream messages).wp failing
      (Program.andThen (fun _ after => Ready pipeline [] after)
        fun _ after => Stopping pipeline after) state := by
  induction messages generalizing state with
  | nil => exact ready
  | cons message rest induction =>
      rw [EventPipeline.processAll, Program.bind_eq_bind, Program.wp_bind]
      refine Program.wp_mono (Handler.observed_monotone _ _ _) ?_ ready.wp_processWithRetry
      rintro (failure | _) after settled
      · exact settled
      · exact induction settled

/-! ## Runs -/

/-- Delivered messages are open until they are taken up. -/
theorem Going.deliver {world : PipelineWorld} {failures : Failures}
    (going : Going pipeline [] (world, failures)) (stream : String) (choice : PipelineChoice) :
    Ready pipeline (choice.messages.map (Prod.mk stream))
      ({ world with history := world.history ++ choice.messages.map (.delivered stream) },
        watchFailures failures (.consume stream) choice) where
  handled := going.handled
  settled source message member := by
    rcases List.mem_append.mp member with old | new
    · rcases going.settled source message old with isOpen | ⟨counted, disturbed | sent⟩
      · cases isOpen
      · exact .inr ⟨counted, .inl disturbed⟩
      · exact .inr ⟨counted, .inr (sent.mono (List.subset_append_left _ _))⟩
    · obtain ⟨held, isHeld, same⟩ := List.mem_map.mp new
      obtain ⟨rfl, rfl⟩ := Happening.delivered.inj same
      exact .inl (List.mem_map_of_mem isHeld)
  remembered msgId member := by
    obtain ⟨source, other, eventType, ts, delivered, sameId, sent⟩ := going.remembered msgId member
    exact ⟨source, other, eventType, ts, List.mem_append_left _ delivered, sameId,
      List.mem_append_left _ sent⟩
  waiting := rfl
  delivered delivery member := by
    obtain ⟨message, isMessage, rfl⟩ := List.mem_map.mp member
    exact List.mem_append_right _ (List.mem_map_of_mem isMessage)

theorem Going.wp_pollStreams (going : Going pipeline [] state) (streams : List String) :
    (pipeline.pollStreams streams).wp failing
      (Program.andThen (fun _ after => Going pipeline [] after)
        fun _ after => Stopping pipeline after) state := by
  induction streams generalizing state with
  | nil => exact going
  | cons stream rest induction =>
      rw [EventPipeline.pollStreams, Program.bind_eq_bind, Program.wp_bind, pipe,
        Program.wp_perform]
      intro choice _
      change Program.wp _ (if choice.running then _ else _) _ _
      split
      · rw [Program.bind_eq_bind, Program.wp_bind, pipe, Program.wp_perform]
        intro choice _
        change Program.wp _ (_ >>= _) _ _
        rw [Program.bind_eq_bind, Program.wp_bind]
        refine Program.wp_mono (Handler.observed_monotone _ _ _) ?_
          (going.deliver stream choice).wp_processAll
        rintro (failure | _) after settled
        · exact settled
        · exact induction settled.toGoing
      · exact going

theorem Going.wp_run (going : Going pipeline [] state) (rounds : ℕ) :
    (pipeline.run rounds).wp failing
      (Program.andThen (fun _ after => Going pipeline [] after)
        fun _ after => Stopping pipeline after) state := by
  induction rounds generalizing state with
  | zero => exact going
  | succ rounds induction =>
      rw [EventPipeline.run, Program.bind_eq_bind, Program.wp_bind, pipe, Program.wp_perform]
      intro choice _
      change Program.wp _ (if choice.running then _ else _) _ _
      split
      · rw [Program.bind_eq_bind, Program.wp_bind]
        refine Program.wp_mono (Handler.observed_monotone _ _ _) ?_ (going.wp_pollStreams streams)
        rintro (failure | _) after settled
        · exact settled
        · exact induction settled
      · exact going

/-- A run goes on and broadcasts what no failing call disturbed exactly when every retry count is
an integer and neither a dead letter nor the notice about it fails. -/
theorem EventPipeline.neverStops_iff (pipeline : EventPipeline) (rounds : ℕ)
    (choices : ℕ → PipelineChoice) :
    pipeline.NeverStops rounds choices ↔ pipeline.Absorbed rounds choices := by
  have start : Going pipeline [] ({}, {}) := ⟨rfl, by simp, by simp⟩
  have permits := @Program.permits_of_forall _ _ _ _ _ pipelineHandler (fun _ _ => True)
    (pipeline.run rounds) choices {} fun _ _ => trivial
  have reached := Handler.exec_of_observed (start.wp_run rounds) permits
  rw [EventPipeline.NeverStops, EventPipeline.Absorbed]
  cases outcome : ((pipeline.run rounds).exec pipelineHandler choices {}).1 with
  | ok _ =>
      rw [outcome, Program.andThen_ok] at reached
      constructor
      · intro _
        refine ⟨fun stream message delivered => ?_, reached.handled⟩
        rcases reached.settled stream message delivered with isOpen | settled
        · cases isOpen
        · exact settled.1
      · intro _
        refine ⟨rfl, fun stream message delivered healthy => ?_⟩
        rcases reached.settled stream message delivered with isOpen | ⟨-, disturbed | sent⟩
        · cases isOpen
        · exact absurd disturbed healthy
        · exact sent
  | error failure =>
      rw [outcome, Program.andThen_error] at reached
      constructor
      · rintro ⟨raised, -⟩
        cases raised
      · rintro ⟨counted, handled⟩
        rcases reached with unhandled | ⟨stream, message, error, delivered, uncounted⟩
        · rw [unhandled] at handled
          cases handled
        · obtain ⟨retryCount, isCounted⟩ := counted stream message delivered
          rw [uncounted] at isCounted
          cases isCounted

/-! ## A retry count that is no integer -/

/-- Two messages of one stream; the first has a word for its retry count, the second is healthy. -/
def wordForCount : ℕ → PipelineChoice
  | 2 =>
      { messages :=
          [⟨"1-0", [("retry_count", .str "abc")]⟩, ⟨"2-0", [("msg_id", .str "tick-2")]⟩] }
  | _ => {}

/-- The first message ends the loop, with the second one delivered and not taken up. -/
theorem not_neverStops_wordForCount : ¬plainPipeline.NeverStops 1 wordForCount := by
  rintro ⟨returned, -⟩
  have raised : ((plainPipeline.run 1).exec pipelineHandler wordForCount {}).1 =
      .error (.raised .valueError) := rfl
  rw [raised] at returned
  cases returned

end TradingControl.Events
