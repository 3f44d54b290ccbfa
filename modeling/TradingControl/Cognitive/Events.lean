import Mathlib.Data.Int.Order.Basic
import TradingControl.Effects.SeenLog
import TradingControl.Python.Dict
import TradingControl.Python.Runtime

/-!
# Event stream

One ordered log that every part of the cognitive loop appends to.  A cap evicts the oldest events,
and the sequence numbers go on counting.
-/

namespace TradingControl.Cognitive

open Python

/-- `EventType`. -/
inductive EventType where
  | marketTick
  | newsSignal
  | techSignal
  | macroSignal
  | riskSignal
  | reasoning
  | features
  | decision
  | riskGate
  | execution
  | tradeOutcome
  | attribution
  | grade
  | observation
  | counterfactual
  | drift
  | proposal
  | challengerVerdict
  | backtestResult
  | prRequest
  | configVersion
deriving DecidableEq, Repr

/-- `kind.value`. -/
def EventType.value : EventType → String
  | .marketTick => "market_tick"
  | .newsSignal => "news_signal"
  | .techSignal => "tech_signal"
  | .macroSignal => "macro_signal"
  | .riskSignal => "risk_signal"
  | .reasoning => "reasoning"
  | .features => "features"
  | .decision => "decision"
  | .riskGate => "risk_gate"
  | .execution => "execution"
  | .tradeOutcome => "trade_outcome"
  | .attribution => "attribution"
  | .grade => "grade"
  | .observation => "observation"
  | .counterfactual => "counterfactual"
  | .drift => "drift"
  | .proposal => "proposal"
  | .challengerVerdict => "challenger_verdict"
  | .backtestResult => "backtest_result"
  | .prRequest => "pr_request"
  | .configVersion => "config_version"

/-- Items of a payload. -/
abbrev Payload := Dict String Value

/-- What an emitter says: an event without its sequence number. -/
structure Message where
  kind : EventType
  payload : Payload := []
  traceId : String := ""
  source : String := ""
  ts : String := ""

structure Event extends Message where
  seq : ℕ

/-- The log, with the events that each subscriber has been called with. -/
structure EventStream where
  events : List Event := []
  subscribers : List (List Event) := []
  maxEvents : Option ℤ := none
  emitted : ℕ := 0
  dropped : ℕ := 0

namespace EventStream

/-- `emit`. -/
def emit (stream : EventStream) (message : Message) : EventStream :=
  let event : Event := { message with seq := stream.emitted }
  let appended := stream.events ++ [event]
  let full := match stream.maxEvents with
    | none => false
    | some cap => decide ((appended.length : ℤ) > cap)
  { stream with
    emitted := stream.emitted + 1
    events := if full then appended.tail else appended
    dropped := if full then stream.dropped + 1 else stream.dropped
    subscribers := stream.subscribers.map (· ++ [event]) }

/-- `subscribe`. -/
def subscribe (stream : EventStream) : EventStream :=
  { stream with subscribers := stream.subscribers ++ [[]] }

/-- `events(kind=kind)`. -/
def ofKind (stream : EventStream) (kind : EventType) : List Event :=
  stream.events.filter (·.kind = kind)

/-- `latest`. -/
def latest (stream : EventStream) (kind : EventType) : Option Event :=
  stream.events.reverse.find? (·.kind = kind)

/-- Several messages one after another. -/
def emitAll (stream : EventStream) (messages : List Message) : EventStream :=
  messages.foldl emit stream

@[simp] theorem emitAll_nil (stream : EventStream) : stream.emitAll [] = stream := rfl

@[simp] theorem emitAll_cons (stream : EventStream) (message : Message) (rest : List Message) :
    stream.emitAll (message :: rest) = (stream.emit message).emitAll rest := rfl

theorem emitAll_append (stream : EventStream) (first second : List Message) :
    stream.emitAll (first ++ second) = (stream.emitAll first).emitAll second :=
  List.foldl_append

/-! ## Retention -/

end EventStream

def numbered (start : ℕ) : List Message → List Event
  | [] => []
  | message :: rest => { message with seq := start } :: numbered (start + 1) rest

theorem numbered_append (start : ℕ) (first second : List Message) :
    numbered start (first ++ second) =
      numbered start first ++ numbered (start + first.length) second := by
  induction first generalizing start with
  | nil => rfl
  | cons message rest induction =>
      rw [List.cons_append, numbered, numbered, induction, List.length_cons, List.cons_append,
        Nat.add_right_comm, Nat.add_assoc]

@[simp] theorem length_numbered (start : ℕ) (messages : List Message) :
    (numbered start messages).length = messages.length := by
  induction messages generalizing start with
  | nil => rfl
  | cons message rest induction => simp [numbered, induction]

theorem map_seq_numbered (start : ℕ) (messages : List Message) :
    (numbered start messages).map (·.seq) = List.range' start messages.length := by
  induction messages generalizing start with
  | nil => rfl
  | cons message rest induction => simp [numbered, List.range'_succ, induction]

theorem map_message_numbered (start : ℕ) (messages : List Message) :
    (numbered start messages).map (·.toMessage) = messages := by
  induction messages generalizing start with
  | nil => rfl
  | cons message rest induction => simp [numbered, induction]

theorem mem_of_mem_numbered {start : ℕ} {messages : List Message} {event : Event}
    (member : event ∈ numbered start messages) : event.toMessage ∈ messages := by
  have mapped := List.mem_map_of_mem (f := fun event : Event => event.toMessage) member
  rwa [map_message_numbered] at mapped

namespace EventStream

/-- The cap as a number of events; a negative one leaves none. -/
def cap (stream : EventStream) : Option ℕ := stream.maxEvents.map Int.toNat

/-- The stream holds what its cap leaves of everything sent to it. -/
structure Retains (stream : EventStream) (sent : List Message) : Prop where
  emitted : stream.emitted = sent.length
  dropped : stream.dropped = CappedLog.evicted stream.cap sent.length
  events : stream.events = CappedLog.retained stream.cap (numbered 0 sent)

theorem retains_fresh (maxEvents : Option ℤ) : Retains { maxEvents } [] := by
  refine ⟨rfl, ?_, ?_⟩
  · cases maxEvents <;> simp [CappedLog.evicted, cap]
  · simp [CappedLog.retained, numbered]

theorem Retains.subscribe {stream : EventStream} {sent : List Message}
    (retains : stream.Retains sent) : stream.subscribe.Retains sent :=
  ⟨retains.emitted, retains.dropped, retains.events⟩

theorem full_iff (stream : EventStream) (length : ℕ) :
    (match stream.maxEvents with
      | none => false
      | some cap => decide (((length + 1 : ℕ) : ℤ) > cap)) = true ↔
      CappedLog.Exceeds stream.cap (length + 1) := by
  simp only [cap, CappedLog.Exceeds]
  cases stream.maxEvents with
  | none => simp
  | some cap =>
      simp only [decide_eq_true_eq, Option.map_some]
      omega

/-- One emission, with the cap as a number of events. -/
theorem emit_eq (stream : EventStream) (message : Message) :
    stream.emit message =
      { stream with
        emitted := stream.emitted + 1
        events :=
          if CappedLog.Exceeds stream.cap (stream.events.length + 1) then
            (stream.events ++ [({ message with seq := stream.emitted } : Event)]).tail
          else stream.events ++ [({ message with seq := stream.emitted } : Event)]
        dropped :=
          if CappedLog.Exceeds stream.cap (stream.events.length + 1) then stream.dropped + 1
          else stream.dropped
        subscribers := stream.subscribers.map
          (· ++ [({ message with seq := stream.emitted } : Event)]) } := by
  have full := stream.full_iff stream.events.length
  unfold emit
  dsimp only
  rw [List.length_append, List.length_singleton]
  simp only [full]

theorem Retains.emit {stream : EventStream} {sent : List Message}
    (retains : stream.Retains sent) (message : Message) :
    (stream.emit message).Retains (sent ++ [message]) := by
  have last : numbered 0 (sent ++ [message]) =
      numbered 0 sent ++ [{ message with seq := stream.emitted }] := by
    rw [numbered_append, retains.emitted, Nat.zero_add]
    rfl
  have count : sent.length = (numbered 0 sent).length := (length_numbered 0 sent).symm
  have length : stream.events.length = (CappedLog.retained stream.cap (numbered 0 sent)).length :=
    congrArg List.length retains.events
  rw [emit_eq]
  refine ⟨?_, ?_, ?_⟩
  · rw [List.length_append]
    exact congrArg (· + 1) retains.emitted
  · change (if _ then stream.dropped + 1 else stream.dropped) =
      CappedLog.evicted stream.cap (sent ++ [message]).length
    rw [List.length_append, List.length_singleton, count, CappedLog.evicted_succ, ← length, ← count,
      ← retains.dropped]
    split_ifs <;> rfl
  · change (if _ then _ else _) = CappedLog.retained stream.cap (numbered 0 (sent ++ [message]))
    rw [last, CappedLog.retained_append, ← retains.events]

theorem Retains.emitAll {stream : EventStream} {sent : List Message}
    (retains : stream.Retains sent) (messages : List Message) :
    (stream.emitAll messages).Retains (sent ++ messages) := by
  induction messages generalizing stream sent with
  | nil => simpa using retains
  | cons message rest induction =>
      rw [emitAll_cons]
      simpa using induction (retains.emit message)

@[simp] theorem maxEvents_emitAll (stream : EventStream) (messages : List Message) :
    (stream.emitAll messages).maxEvents = stream.maxEvents := by
  induction messages generalizing stream with
  | nil => rfl
  | cons message rest induction => exact induction (stream.emit message)

@[simp] theorem emitted_emitAll (stream : EventStream) (messages : List Message) :
    (stream.emitAll messages).emitted = stream.emitted + messages.length := by
  induction messages generalizing stream with
  | nil => rfl
  | cons message rest induction =>
      rw [emitAll_cons, induction, List.length_cons, Nat.add_comm rest.length, ← Nat.add_assoc]
      rfl

theorem subscribers_emitAll (stream : EventStream) (messages : List Message) :
    (stream.emitAll messages).subscribers =
      stream.subscribers.map (· ++ numbered stream.emitted messages) := by
  induction messages generalizing stream with
  | nil => simp [numbered]
  | cons message rest induction =>
      rw [emitAll_cons, induction]
      simp [emit, numbered]

/-- Sequence numbers are consecutive, and evicted and retained events add up. -/
theorem Retains.consecutive {stream : EventStream} {sent : List Message}
    (retains : stream.Retains sent) :
    stream.events.map (·.seq) = List.range' stream.dropped stream.events.length ∧
      stream.dropped + stream.events.length = stream.emitted := by
  have total := CappedLog.evicted_add_length stream.cap (numbered 0 sent)
  rw [length_numbered, ← retains.events, ← retains.dropped, ← retains.emitted] at total
  refine ⟨?_, total⟩
  conv_lhs => rw [retains.events]
  rw [CappedLog.map_retained, map_seq_numbered, CappedLog.retained, List.length_range',
    List.drop_range', ← retains.dropped, ← retains.emitted]
  congr 1 <;> omega

end EventStream

end TradingControl.Cognitive
