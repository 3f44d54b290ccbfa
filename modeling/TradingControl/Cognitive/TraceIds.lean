import TradingControl.Cognitive.Runs

/-!
# Trace ids

A step without a trace id of its caller takes the length of the stream for one, and a closed trade
looks its decision up by the id.  The ids are those of single steps until the stream is full: then
its length no longer grows, and the next steps share one id.
-/

namespace TradingControl.Cognitive

open Python

/-! ## Runs of trades -/

/-- The same step without a trace id of the caller. -/
def StepCall.anonymous (call : StepCall) : StepCall := { call with traceId := none }

/-- A step without a trace id of the caller, or a closed trade. -/
inductive TradeOp where
  | step (call : StepCall)
  | closeTrade (traceId : String) (outcome : TradeOutcome)

/-- The operation of the loop. -/
def TradeOp.asLoopOp : TradeOp → LoopOp
  | .step call => .step call.anonymous
  | .closeTrade traceId outcome => .closeTrade traceId outcome

namespace Loop

variable (runtime : Runtime)

def trades (loop : Loop) (operations : List TradeOp) : Loop :=
  loop.run runtime (operations.map TradeOp.asLoopOp)

/-- The stream is at its cap. -/
def Full (loop : Loop) : Prop :=
  ∃ cap, loop.stream.maxEvents = some cap ∧ cap ≤ loop.stream.events.length

def decisionPayload (loop : Loop) (call : StepCall) : Payload :=
  loop.withLineage (loop.stepResult call).decision.asDict

def decisionEvent (loop : Loop) (call : StepCall) : Event where
  kind := .decision
  payload := loop.decisionPayload call
  traceId := loop.traceIdOf call.traceId
  source := "decision_engine"
  ts := call.market.ts
  seq := loop.stream.emitted + 6

theorem decisionEvent_iff (loop : Loop) (call : StepCall) (event : Event) :
    event ∈ numbered loop.stream.emitted (loop.stepMessages call) ∧ event.kind = .decision ↔
      event = loop.decisionEvent call := by
  have events : numbered loop.stream.emitted (loop.stepMessages call) =
      numbered loop.stream.emitted (call.specialists.messages call.market
          (loop.traceIdOf call.traceId)) ++
        loop.decisionEvent call :: numbered (loop.stream.emitted + 7)
          (loop.decisionMessages call).tail := rfl
  rw [events]
  constructor
  · rintro ⟨member, decision⟩
    rcases List.mem_append.mp member with agent | member
    · exact absurd decision (offline_of_mem_messages (mem_of_mem_numbered agent)).1
    · rcases List.mem_cons.mp member with rfl | later
      · rfl
      · have other := mem_of_mem_numbered later
        simp only [decisionMessages, List.tail_cons, List.mem_cons, List.not_mem_nil,
          or_false] at other
        rcases other with same | same <;> simp [congrArg Message.kind same] at decision
  · rintro rfl
    exact ⟨List.mem_append_right _ (List.mem_cons_self ..), rfl⟩

def tradeMessages (start : Loop) (operations : List TradeOp) : List Message :=
  configVersionMessage start.config none ::
    start.messagesDuring runtime (operations.map TradeOp.asLoopOp)

theorem tradeMessages_append (start : Loop) (first second : List TradeOp) :
    start.tradeMessages runtime (first ++ second) = start.tradeMessages runtime first ++
      (start.trades runtime first).messagesDuring runtime (second.map TradeOp.asLoopOp) := by
  simp only [tradeMessages, trades]
  rw [List.map_append, messagesDuring_append, List.cons_append]

/-- A loop without a stream of its caller. -/
def fresh (cap : Option ℤ) (config : CognitiveConfig) : Loop := .init { maxEvents := cap } config

/-- The stream of a fresh loop holds what its cap leaves of the messages. -/
theorem retains_trades (cap : Option ℤ) (config : CognitiveConfig) (operations : List TradeOp) :
    ((fresh cap config).trades runtime operations).stream.Retains
      ((fresh cap config).tradeMessages runtime operations) := by
  rw [trades]
  rw [stream_run]
  exact ((EventStream.retains_fresh cap).emit _).emitAll _

theorem cap_trades (cap : Option ℤ) (config : CognitiveConfig) (operations : List TradeOp) :
    ((fresh cap config).trades runtime operations).stream.maxEvents = cap := by
  rw [trades]
  rw [stream_run, EventStream.maxEvents_emitAll]
  rfl

/-- The stream is full as soon as the messages reach the cap. -/
theorem full_trades_iff (cap : Option ℤ) (config : CognitiveConfig) (operations : List TradeOp) :
    ((fresh cap config).trades runtime operations).Full ↔
      ∃ limit, cap.map Int.toNat = some limit ∧
        limit ≤ ((fresh cap config).tradeMessages runtime operations).length := by
  have retains := retains_trades runtime cap config operations
  have length := congrArg List.length retains.events
  rw [Full]
  rw [length, EventStream.cap, cap_trades]
  cases cap with
  | none => simp
  | some cap =>
      simp only [Option.some.injEq, exists_eq_left', Option.map_some,
        CappedLog.length_retained_some, length_numbered]
      omega

/-- The id of a step is the length of what the stream retains. -/
theorem traceIdOf_eq_iff (cap : Option ℤ) (config : CognitiveConfig) {first later : List TradeOp}
    (grows : ((fresh cap config).tradeMessages runtime first).length <
      ((fresh cap config).tradeMessages runtime later).length) :
    ((fresh cap config).trades runtime first).traceIdOf none =
        ((fresh cap config).trades runtime later).traceIdOf none ↔
      ((fresh cap config).trades runtime first).Full := by
  have before := retains_trades runtime cap config first
  have after := retains_trades runtime cap config later
  have lengths : ((fresh cap config).trades runtime first).traceIdOf none =
        ((fresh cap config).trades runtime later).traceIdOf none ↔
      ((fresh cap config).trades runtime first).stream.events.length =
        ((fresh cap config).trades runtime later).stream.events.length := by
    refine ⟨fun same => repr_injective ?_, fun same => ?_⟩
    · simpa [traceIdOf, orDefault] using same
    · rw [traceIdOf, traceIdOf, same]
  rw [lengths, before.events, after.events, EventStream.cap, EventStream.cap, cap_trades,
    cap_trades, full_trades_iff, CappedLog.length_retained_eq_iff, length_numbered]
  simpa using grows

theorem decision_of_mem (cap : Option ℤ) (config : CognitiveConfig) (operations : List TradeOp)
    {event : Event}
    (member : event ∈ numbered 0 ((fresh cap config).tradeMessages runtime operations))
    (decision : event.kind = .decision) :
    ∃ index call, operations[index]? = some (.step call) ∧
      event = ((fresh cap config).trades runtime (operations.take index)).decisionEvent
        call.anonymous := by
  induction operations using List.reverseRecOn with
  | nil =>
      simp only [tradeMessages, messagesDuring, List.map_nil, numbered,
        List.mem_singleton] at member
      subst member
      cases decision
  | append_singleton operations operation induction =>
      rw [tradeMessages_append, numbered_append, Nat.zero_add,
        ← (retains_trades runtime cap config operations).emitted] at member
      rcases List.mem_append.mp member with earlier | own
      · obtain ⟨index, call, step, same⟩ := induction earlier
        have before : index < operations.length := (List.getElem?_eq_some_iff.mp step).1
        refine ⟨index, call, ?_, ?_⟩
        · rw [List.getElem?_append_left before, step]
        · rw [List.take_append_of_le_length before.le, same]
      · rw [List.map_singleton, messagesDuring, messagesDuring, List.append_nil] at own
        obtain ⟨-, -, ⟨call, step, messages⟩ | offline⟩ :=
          messagesOf_spec runtime ((fresh cap config).trades runtime operations) operation.asLoopOp
        · cases operation with
          | closeTrade traceId outcome => cases step
          | step given =>
              obtain rfl := LoopOp.step.inj step
              rw [messages] at own
              refine ⟨operations.length, given, by simp, ?_⟩
              rw [List.take_left']
              · exact (decisionEvent_iff _ _ event).mp ⟨own, decision⟩
              · rfl
        · exact absurd decision (offline _ (mem_of_mem_numbered own)).1

theorem tradeMessages_grow (start : Loop) {operations : List TradeOp} {first later : ℕ}
    {call : StepCall} (before : first < later) (step : operations[first]? = some (.step call)) :
    (start.tradeMessages runtime (operations.take first)).length <
      (start.tradeMessages runtime (operations.take later)).length := by
  obtain ⟨bound, same⟩ := List.getElem?_eq_some_iff.mp step
  have split : operations.take later =
      operations.take first ++ .step call :: (operations.take later).drop (first + 1) := by
    have inside : first < (operations.take later).length := by
      rw [List.length_take]
      omega
    have head : (operations.take later)[first] = .step call := by
      rw [List.getElem_take, same]
    rw [← head, ← List.drop_eq_getElem_cons inside]
    conv_lhs => rw [← List.take_append_drop first (operations.take later), List.take_take,
      min_eq_left before.le]
  rw [split, tradeMessages_append, List.length_append, List.map_cons, messagesDuring,
    TradeOp.asLoopOp, messagesOf_step, List.length_append]
  have some : 0 < (((start.trades runtime (operations.take first)).stepMessages
      call.anonymous)).length := by simp [stepMessages, decisionMessages]
  omega

end Loop

/-! ## Ids of steps -/

/-- Distinct steps of a run have distinct trace ids, and a closed trade with the id of a step whose
decision is retained is attributed to that decision. -/
structure IdentifySteps (runtime : Runtime) (start : Loop) (operations : List TradeOp) : Prop where
  distinct : ∀ first later call other, first < later →
    operations[first]? = some (.step call) → operations[later]? = some (.step other) →
    (start.trades runtime (operations.take first)).traceIdOf none ≠
      (start.trades runtime (operations.take later)).traceIdOf none
  attributed : ∀ index count call outcome, index < count → operations[index]? = some (.step call) →
    let before := start.trades runtime (operations.take index)
    let after := start.trades runtime (operations.take count)
    before.decisionEvent call.anonymous ∈ after.stream.events →
    after.closeTrade runtime (before.traceIdOf none) outcome =
      after.closeWith runtime (before.traceIdOf none) outcome
        (before.decisionPayload call.anonymous)

/-- In a run from a fresh loop, trace ids identify the steps exactly when no step with a later one
starts with the stream at its cap. -/
theorem identifySteps_iff (runtime : Runtime) (cap : Option ℤ) (config : CognitiveConfig)
    (operations : List TradeOp) :
    IdentifySteps runtime (.fresh cap config) operations ↔
      ∀ first later call other, first < later →
        operations[first]? = some (.step call) → operations[later]? = some (.step other) →
        ¬((Loop.fresh cap config).trades runtime (operations.take first)).Full := by
  have same_iff : ∀ {first later call}, first < later → operations[first]? = some (.step call) →
      (((Loop.fresh cap config).trades runtime (operations.take first)).traceIdOf none =
          ((Loop.fresh cap config).trades runtime (operations.take later)).traceIdOf none ↔
        ((Loop.fresh cap config).trades runtime (operations.take first)).Full) :=
    fun before step => Loop.traceIdOf_eq_iff runtime cap config
      (Loop.tradeMessages_grow runtime (Loop.fresh cap config) before step)
  constructor
  · intro identify first later call other before step next full
    exact identify.distinct first later call other before step next
      ((same_iff before step).mpr full)
  · intro room
    have distinct : ∀ first later call other, first < later →
        operations[first]? = some (.step call) → operations[later]? = some (.step other) →
        ((Loop.fresh cap config).trades runtime (operations.take first)).traceIdOf none ≠
          ((Loop.fresh cap config).trades runtime (operations.take later)).traceIdOf none :=
      fun first later call other before step next same =>
        room first later call other before step next ((same_iff before step).mp same)
    refine ⟨distinct, ?_⟩
    intro index count call outcome before step start after retained
    -- a retained decision with the id is the one of the step
    have only : ∀ event ∈ after.stream.events,
        (event.kind = .decision && event.traceId = start.traceIdOf none) = true →
          event = start.decisionEvent call.anonymous := by
      intro event member test
      simp only [Bool.and_eq_true, decide_eq_true_eq] at test
      obtain ⟨decision, traceId⟩ := test
      rw [(Loop.retains_trades runtime cap config (operations.take count)).events] at member
      obtain ⟨found, given, taken, rfl⟩ := Loop.decision_of_mem runtime cap config
        (operations.take count) (List.mem_of_mem_drop member) decision
      have known : operations[found]? = some (.step given) ∧ found < count := by
        rw [List.getElem?_take] at taken
        split at taken
        · next within => exact ⟨taken, within⟩
        · cases taken
      rw [List.take_take, min_eq_left known.2.le] at traceId ⊢
      rcases lt_trichotomy found index with earlier | rfl | later
      · exact absurd traceId (distinct found index given call earlier known.1 step)
      · rw [Option.some.inj (known.1.symm.trans step) |> TradeOp.step.inj]
      · exact absurd traceId.symm (distinct index found call given later step known.1)
    have found : after.decisionFor (start.traceIdOf none) =
        some (start.decisionPayload call.anonymous) := by
      cases search : after.stream.events.reverse.find? fun event =>
          event.kind = .decision && event.traceId = start.traceIdOf none with
      | none =>
          have missed := List.find?_eq_none.mp search _ (List.mem_reverse.mpr retained)
          simp [Loop.decisionEvent, StepCall.anonymous] at missed
      | some event =>
          have held := List.mem_reverse.mp (List.mem_of_find?_eq_some search)
          have test := List.find?_some search
          rw [Loop.decisionFor, search, only event held test]
          rfl
    rw [Loop.closeTrade]
    rw [found]
    rfl

/-- A hold at a flat price. -/
def quietStep : TradeOp := .step
  { specialists := defaultSpecialists Reference.runtime
    market := { symbol := "BTC/USD", price := 100, history := [100, 100] }
    equity := 10000
    positionPct := 1 / 100 }

/-- With twelve events retained, the third and the fourth step share an id. -/
theorem fourthStep_takesId :
    ¬IdentifySteps Reference.runtime (.fresh (some 12) defaultConfig)
      [quietStep, quietStep, quietStep, quietStep] := by
  intro identify
  have shared : ((Loop.fresh (some 12) defaultConfig).trades Reference.runtime
      [quietStep, quietStep]).traceIdOf none =
    ((Loop.fresh (some 12) defaultConfig).trades Reference.runtime
      [quietStep, quietStep, quietStep]).traceIdOf none := by
    decide +kernel
  exact identify.distinct 2 3 _ _ (by decide) rfl rfl shared

end TradingControl.Cognitive
