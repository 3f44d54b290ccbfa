import Mathlib.Data.List.Forall2
import TradingControl.Cognitive.Runs

/-!
# Advice without influence

Two runs that differ only in what the risk agent scores and the reasoning agent writes emit the same
events, up to the payloads that quote the advice, and end with the same configuration.
-/

namespace TradingControl.Cognitive

open Python

/-! ## Streams up to advice -/

/-- Kinds of events whose payloads quote the risk feature or the text of the reasoning agent. -/
def EventType.Advisory (kind : EventType) : Prop :=
  kind = .riskSignal ∨ kind = .features ∨ kind = .reasoning

/-- The messages agree in everything but the payload of an advisory kind. -/
structure Message.Alike (one two : Message) : Prop where
  kind : one.kind = two.kind
  traceId : one.traceId = two.traceId
  source : one.source = two.source
  ts : one.ts = two.ts
  payload : ¬one.kind.Advisory → one.payload = two.payload

theorem Message.Alike.refl (message : Message) : message.Alike message :=
  ⟨rfl, rfl, rfl, rfl, fun _ => rfl⟩

/-- The events agree in everything but the payload of an advisory kind. -/
structure Event.Alike (one two : Event) : Prop extends one.toMessage.Alike two.toMessage where
  seq : one.seq = two.seq

theorem Event.Alike.refl (event : Event) : event.Alike event :=
  ⟨Message.Alike.refl event.toMessage, rfl⟩

theorem forall₂_getLastD {α : Type} {relation : α → α → Prop} {first second : List α}
    {one two : α} (alike : List.Forall₂ relation first second) (default : relation one two) :
    relation (first.getLastD one) (second.getLastD two) := by
  induction alike generalizing one two with
  | nil => exact default
  | cons head _ induction =>
      rw [List.getLastD_cons, List.getLastD_cons]
      exact induction head

/-- The streams hold the same events up to advice, and so do the logs of their subscribers. -/
structure EventStream.Alike (one two : EventStream) : Prop where
  events : List.Forall₂ Event.Alike one.events two.events
  subscribers : List.Forall₂ (List.Forall₂ Event.Alike) one.subscribers two.subscribers
  maxEvents : one.maxEvents = two.maxEvents
  emitted : one.emitted = two.emitted
  dropped : one.dropped = two.dropped

namespace EventStream

theorem Alike.refl (stream : EventStream) : stream.Alike stream where
  events := List.forall₂_same.mpr fun event _ => Event.Alike.refl event
  subscribers := List.forall₂_same.mpr fun _ _ =>
    List.forall₂_same.mpr fun event _ => Event.Alike.refl event
  maxEvents := rfl
  emitted := rfl
  dropped := rfl

theorem Alike.emit {one two : EventStream} (alike : one.Alike two) {first second : Message}
    (same : first.Alike second) : (one.emit first).Alike (two.emit second) := by
  have event : List.Forall₂ Event.Alike [({ first with seq := one.emitted } : Event)]
      [({ second with seq := two.emitted } : Event)] := .cons ⟨same, alike.emitted⟩ .nil
  have appended := List.rel_append alike.events event
  have full : CappedLog.Exceeds one.cap (one.events.length + 1) ↔
      CappedLog.Exceeds two.cap (two.events.length + 1) := by
    rw [EventStream.cap, EventStream.cap, alike.maxEvents, alike.events.length_eq]
  rw [emit_eq, emit_eq]
  simp only [full]
  refine ⟨?_, ?_, alike.maxEvents, congrArg (· + 1) alike.emitted, ?_⟩
  · dsimp only
    split_ifs
    · rw [← List.drop_one, ← List.drop_one]
      exact List.forall₂_drop 1 appended
    · exact appended
  · exact List.rel_map (fun _ _ log => List.rel_append log event) alike.subscribers
  · dsimp only
    rw [alike.dropped]

theorem Alike.emitAll {one two : EventStream} (alike : one.Alike two) {first second : List Message}
    (same : List.Forall₂ Message.Alike first second) :
    (one.emitAll first).Alike (two.emitAll second) := by
  induction same generalizing one two with
  | nil => exact alike
  | cons head _ induction => exact induction (alike.emit head)

/-- A look-up that sees nothing of the advice finds the same payload in both streams. -/
theorem find?_alike {one two : List Event} (alike : List.Forall₂ Event.Alike one two)
    (test : Event → Bool) (blind : ∀ {first second : Event}, first.Alike second →
      test first = test second) (behavioural : ∀ event, test event = true → ¬event.kind.Advisory) :
    (one.find? test).map (·.payload) = (two.find? test).map (·.payload) := by
  induction alike with
  | nil => rfl
  | @cons first second _ _ same _ induction =>
      cases found : test first with
      | true =>
          rw [List.find?_cons_of_pos found, List.find?_cons_of_pos (blind same ▸ found)]
          exact congrArg some (same.payload (behavioural first found))
      | false =>
          rw [List.find?_cons_of_neg (by simp [found]),
            List.find?_cons_of_neg (by simp [← blind same, found])]
          exact induction

end EventStream

/-! ## Runs up to advice -/

namespace Loop

/-- The loops are the same up to advice on their streams. -/
def Alike (one two : Loop) : Prop :=
  ∃ stream, two = one.onStream stream ∧ one.stream.Alike stream

theorem Alike.refl (loop : Loop) : loop.Alike loop :=
  ⟨loop.stream, rfl, EventStream.Alike.refl loop.stream⟩

/-- A closed trade finds the same decision. -/
theorem decisionFor_alike {loop : Loop} {stream : EventStream} (alike : loop.stream.Alike stream)
    (traceId : String) : (loop.onStream stream).decisionFor traceId = loop.decisionFor traceId := by
  refine (EventStream.find?_alike (List.rel_reverse alike.events) _ ?_ ?_).symm
  · intro first second same
    rw [same.kind, same.traceId]
  · intro event found
    have decision : event.kind = .decision := by
      simp only [Bool.and_eq_true, decide_eq_true_eq] at found
      exact found.1
    simp [EventType.Advisory, decision]

end Loop

/-- The same call with another risk scorer and another text of the reasoning agent. -/
def StepCall.advised (call : StepCall) (risk : MarketView → ℚ × List String)
    (summary : Dict String ℚ → String) : StepCall :=
  { call with specialists := { call.specialists with risk, summary } }

/-- The operations differ at most in the advice of a step. -/
inductive LoopOp.SameButAdvice : LoopOp → LoopOp → Prop
  | same (operation : LoopOp) : SameButAdvice operation operation
  | step (call : StepCall) (risk : MarketView → ℚ × List String)
      (summary : Dict String ℚ → String) :
      SameButAdvice (.step call) (.step (call.advised risk summary))

theorem decideAction_advised (call : StepCall) (risk : MarketView → ℚ × List String)
    (summary : Dict String ℚ → String) (config : CognitiveConfig) :
    decideAction ((call.advised risk summary).specialists.features call.market) config =
      decideAction (call.specialists.features call.market) config := by
  have scored : ∀ key ∈ weightKeys,
      ((call.advised risk summary).specialists.features call.market).lookup key =
        (call.specialists.features call.market).lookup key := by
    intro key scored
    simp only [weightKeys, List.mem_cons, List.not_mem_nil, or_false] at scored
    rcases scored with rfl | rfl | rfl <;> rfl
  unfold decideAction
  rw [List.map_congr_left fun key member => by rw [scored key member]]

namespace Loop

theorem stepMessages_advised {loop : Loop} {stream : EventStream} (alike : loop.stream.Alike stream)
    (call : StepCall) (risk : MarketView → ℚ × List String) (summary : Dict String ℚ → String) :
    List.Forall₂ Message.Alike (loop.stepMessages call)
      ((loop.onStream stream).stepMessages (call.advised risk summary)) := by
  have traceId : (loop.onStream stream).traceIdOf call.traceId = loop.traceIdOf call.traceId := by
    unfold traceIdOf
    rw [alike.events.length_eq]
    rfl
  refine List.rel_append ?_ ?_
  · unfold Specialists.messages
    dsimp only
    rw [show (call.advised risk summary).traceId = call.traceId from rfl, traceId]
    refine .cons (.refl _) (.cons (.refl _) (.cons (.refl _) (.cons ?_ (.cons ?_ (.cons ?_ .nil)))))
    · exact ⟨rfl, rfl, rfl, rfl, fun behavioural => absurd (Or.inl rfl) behavioural⟩
    · exact ⟨rfl, rfl, rfl, rfl, fun behavioural => absurd (Or.inr (Or.inl rfl)) behavioural⟩
    · exact ⟨rfl, rfl, rfl, rfl, fun behavioural => absurd (Or.inr (Or.inr rfl)) behavioural⟩
  · have same : (loop.onStream stream).decisionMessages (call.advised risk summary) =
        loop.decisionMessages call := by
      unfold decisionMessages stepResult
      dsimp only
      rw [show (call.advised risk summary).traceId = call.traceId from rfl, traceId,
        show (call.advised risk summary).market = call.market from rfl,
        show (loop.onStream stream).config = loop.config from rfl, decideAction_advised]
      rfl
    rw [same]
    exact List.forall₂_same.mpr fun message _ => Message.Alike.refl message

theorem Appends.alike {α : Type} {operation : Loop → α × Loop} {loop : Loop} {stream : EventStream}
    (appends : Appends operation loop) (alike : loop.stream.Alike stream) :
    (operation loop).2.Alike (operation (loop.onStream stream)).2 := by
  obtain ⟨-, -, messages, -, same⟩ := appends
  have own : (operation loop).2.stream = loop.stream.emitAll messages :=
    congrArg (fun outcome => outcome.2.stream) (same loop.stream)
  refine ⟨stream.emitAll messages, by rw [same], ?_⟩
  rw [own]
  exact alike.emitAll (List.forall₂_same.mpr fun message _ => Message.Alike.refl message)

theorem Alike.perform {one two : Loop} (alike : one.Alike two) (runtime : Runtime)
    {first second : LoopOp} (same : first.SameButAdvice second) :
    (one.perform runtime first).Alike (two.perform runtime second) := by
  obtain ⟨stream, rfl, streams⟩ := alike
  have step : ∀ call risk summary, (one.perform runtime (.step call)).Alike
      ((one.onStream stream).perform runtime (.step (call.advised risk summary))) :=
    fun call risk summary =>
      ⟨_, rfl, streams.emitAll (stepMessages_advised streams call risk summary)⟩
  cases same with
  | step call risk summary => exact step call risk summary
  | same =>
      cases first with
      | step call => exact step call call.specialists.risk call.specialists.summary
      | closeTrade traceId outcome =>
          have appended := (appends_closeWith runtime traceId outcome
            ((one.decisionFor traceId).getD []) one).alike streams
          have found := decisionFor_alike streams traceId
          unfold Loop.perform closeTrade
          dsimp only
          rw [found]
          exact appended
      | learn => exact (appends_learn runtime one).alike streams
      | evolve call => exact (appends_evolve runtime call one).alike streams
      | merge call => exact ⟨_, rfl, streams.emit (.refl _)⟩
      | detectDrift => exact (appends_detectDrift one).alike streams

theorem Alike.run {one two : Loop} (alike : one.Alike two) (runtime : Runtime)
    {first second : List LoopOp} (same : List.Forall₂ LoopOp.SameButAdvice first second) :
    (one.run runtime first).Alike (two.run runtime second) := by
  induction same generalizing one two with
  | nil => exact alike
  | cons head _ induction => exact induction (alike.perform runtime head)

/-- Events of a run: those that a subscriber registered just before it is called with. -/
def eventsDuring (runtime : Runtime) (loop : Loop) (operations : List LoopOp) : List Event :=
  (((loop.onStream loop.stream.subscribe).run runtime operations).stream.subscribers).getLastD []

end Loop

/-- Runs that differ in the advice alone emit the same events up to the payloads that quote it, hold
the same events, and end with the same configuration. -/
theorem advice_has_no_influence (runtime : Runtime) (start : Loop) (first second : List LoopOp)
    (same : List.Forall₂ LoopOp.SameButAdvice first second) :
    List.Forall₂ Event.Alike (start.eventsDuring runtime first)
        (start.eventsDuring runtime second) ∧
      List.Forall₂ Event.Alike (start.run runtime first).stream.events
        (start.run runtime second).stream.events ∧
      (start.run runtime first).config = (start.run runtime second).config := by
  refine ⟨?_, ?_⟩
  · obtain ⟨stream, after, streams⟩ :=
      (Loop.Alike.refl (start.onStream start.stream.subscribe)).run runtime same
    simp only [Loop.eventsDuring]
    rw [after]
    exact forall₂_getLastD streams.subscribers .nil
  · obtain ⟨stream, after, streams⟩ := (Loop.Alike.refl start).run runtime same
    rw [after]
    exact ⟨streams.events, rfl⟩

/-! ## Example -/

/-- A step of the default specialists on good news at a flat price. -/
def goodNews : StepCall where
  specialists := defaultSpecialists Reference.runtime
  market :=
    { symbol := "BTC/USD", price := 100, history := [100, 100], newsSentiment := some (8 / 10)
      newsConfidence := 1 }
  equity := 10000
  positionPct := 1 / 100

/-- A trade that ended where it began. -/
def flatOutcome : TradeOutcome where
  realizedPnl := 0
  realizedPnlPct := 0
  maxAdversePct := 0
  slippageBps := 2
  side := "buy"
  entryPrice := 100
  windowLow := 99
  windowHigh := 101

/-- The risk agent cries wolf and the reasoning agent agrees. -/
theorem wolf_has_no_influence :
    let start := Loop.init { maxEvents := some 100 } defaultConfig
    let alarmed := goodNews.advised (fun _ => (1, ["wolf"])) (fun _ => "sell everything")
    let first : List LoopOp := [.step goodNews, .closeTrade "trace-1" flatOutcome]
    let second : List LoopOp := [.step alarmed, .closeTrade "trace-1" flatOutcome]
    List.Forall₂ Event.Alike (start.eventsDuring Reference.runtime first)
        (start.eventsDuring Reference.runtime second) ∧
      List.Forall₂ Event.Alike (start.run Reference.runtime first).stream.events
        (start.run Reference.runtime second).stream.events ∧
      (start.run Reference.runtime first).config = (start.run Reference.runtime second).config :=
  advice_has_no_influence _ _ _ _ (.cons (.step goodNews _ _) (.cons (.same _) .nil))

end TradingControl.Cognitive
