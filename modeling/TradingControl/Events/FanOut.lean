import TradingControl.Events.EventPipeline
import TradingControl.Events.Processes

/-!
# Consumer groups side by side

Consumers of both base classes, the broadcast pipeline, replays of dead letters and other processes,
over the same streams, dead-letter queue and failure counters.
-/

namespace TradingControl.Events

open Effects Python

/-! ## World -/

/-- A record of the dead-letter queue, as it is read back. -/
structure StoredLetter where
  stream : String
  eventId : String
  record : Value

/-- The streams, the dead-letter queue and all that was ever written to it, the failure counters,
and the ids that the pipeline remembers. -/
structure FanOutWorld where
  bus : BusWorld := {}
  dlq : String → String → Option (Option Value) := fun _ _ => none
  deadLetters : List StoredLetter := []
  retries : String → Option ℕ := fun _ => none
  processedMsgIds : List String := []

/-- What the environment decides about one operation. -/
structure FanOutChoice where
  /-- About the commands on streams that the operation issues. -/
  commands : ℕ → BusChoice := fun _ => {}
  /-- What becomes of a command on another key. -/
  reply : Reply := .answered
  /-- The failure counter has expired. -/
  counterLost : Bool := false
  running : Bool := true
  outcome : ProcessOutcome := .returned
  clock : String := "1970-01-01T00:00:00+00:00"
  /-- The text of an exception that a broadcast, a persist or an update raises. -/
  raises : Option String := none
  dbAvailable : Bool := true
  wrote : Bool := false
  status : Value := .none

/-- `json.loads` of what `DLQManager.push` writes. -/
def letterRecord (stream eventId : String) (payload : Dict String Value) (error : String)
    (retries : ℤ) (timestamp : String) : Value :=
  .dict [("stream", .str stream), ("event_id", .str eventId), ("payload", .dict payload),
    ("error", .str error), ("retries", .int retries), ("timestamp", .str timestamp)]

namespace FanOutWorld

/-- `HSET` of the dead-letter queue. -/
def push (world : FanOutWorld) (stream eventId : String) (record : Value) : FanOutWorld :=
  { world with
    dlq := Function.update world.dlq stream
      (Function.update (world.dlq stream) eventId (some (some record)))
    deadLetters := world.deadLetters ++ [⟨stream, eventId, record⟩] }

/-- `HDEL` of the dead-letter queue. -/
def remove (world : FanOutWorld) (stream eventId : String) : FanOutWorld :=
  { world with
    dlq := Function.update world.dlq stream (Function.update (world.dlq stream) eventId none) }

/-- Failure counter as a command finds it. -/
def counter (world : FanOutWorld) (choice : FanOutChoice) (eventId : String) : Option ℕ :=
  if choice.counterLost then none else world.retries eventId

/-- The streams move on. -/
def onBus {α : Type} (world : FanOutWorld) (moved : α × BusWorld) : α × FanOutWorld :=
  (moved.1, { world with bus := moved.2 })

end FanOutWorld

/-- A command on another key takes effect unless it is lost. -/
def keyReply {ε α : Type} (choice : FanOutChoice) (failure : ε) (answer : α)
    (before after : FanOutWorld) : Except ε α × FanOutWorld :=
  match choice.reply with
  | .answered => (.ok answer, after)
  | .lost => (.error failure, before)
  | .unacknowledged => (.error failure, after)

/-! ## Operations -/

/-- The pipeline, the interpreter's limit for JSON texts, and `str(exc)` of the consumers. -/
structure FanOut where
  pipeline : EventPipeline
  depth : ℕ
  errorText : DlqError → String

namespace FanOut

variable (fanOut : FanOut)

def codec : Codec := ⟨fanOut.pipeline.runtime, fanOut.pipeline.formatter, fanOut.depth⟩

/-- The failures of a bus command, as another program sees them. -/
def orFailure {ε α : Type} (failure : ε) : Except BusFailure α → Except ε α
  | .ok answer => .ok answer
  | .error _ => .error failure

/-- Operations of a process. -/
def processHandler (author : Author) :
    Handler busSignature BusFailure FanOutChoice FanOutWorld :=
  fun op choice world => world.onBus (busHandler author op (choice.commands 0) world.bus)

def upkeepHandler : Handler outsideSignature Empty FanOutChoice FanOutWorld :=
  fun op choice world => world.onBus (outsideHandler op (choice.commands 0) world.bus)

/-- Operations of a consumer that reads so many messages at a time under a name. -/
def consumerOps (name : String) (count : ℕ) :
    Handler consumerSignature ConsumerFailure FanOutChoice FanOutWorld
  | .isRunning, choice, world => (.ok choice.running, world)
  | .consume stream group, choice, world =>
      let (answer, after) := world.onBus ((EventBus.consume fanOut.codec stream group name
        count).exec (busHandler .producer) choice.commands world.bus)
      (orFailure .redisError answer, after)
  | .reclaimStale stream group, choice, world =>
      let (answer, after) := world.onBus ((EventBus.reclaimStale fanOut.codec stream group name
        60000).exec (busHandler .producer) choice.commands world.bus)
      (orFailure .redisError answer, after)
  | .backoffAndCheckShutdown, choice, world => (.ok choice.running, world)
  | .process _ _, choice, world =>
      match choice.outcome with
      | .returned => (.ok (), world)
      | .raised error => (.error (.processFailed error), world)
      | .timedOut => (.error .timedOut, world)
  | .incr eventId, choice, world =>
      let retries := (world.counter choice eventId).getD 0 + 1
      keyReply choice .redisError retries world
        { world with retries := Function.update world.retries eventId (some retries) }
  | .expire _, choice, world => keyReply choice .redisError () world world
  | .getRetries eventId, choice, world =>
      keyReply choice .redisError (world.counter choice eventId) world world
  | .hset record, choice, world =>
      keyReply choice .redisError () world (world.push record.stream record.eventId
        (letterRecord record.stream record.eventId record.payload
          (fanOut.errorText record.error) record.retries choice.clock))
  | .xack message, choice, world =>
      let (answer, after) := world.onBus (busHandler .producer
        (.xack message.stream message.group [message.eventId]) (choice.commands 0) world.bus)
      (orFailure .redisError answer, after)

/-- Operations of the broadcast pipeline. -/
def pipelineOps : Handler pipelineSignature PipelineFailure FanOutChoice FanOutWorld
  | .isRunning, choice, world => (.ok choice.running, world)
  | .consume stream, choice, world =>
      let (answer, after) := world.onBus ((EventBus.consume fanOut.codec stream pipelineGroup
        "pipeline" 50).exec (busHandler .producer) choice.commands world.bus)
      (orFailure .redisError answer, after)
  | .utcNow, choice, world => (.ok choice.clock, world)
  | .isProcessed msgId, _, world => (.ok (decide (msgId ∈ world.processedMsgIds)), world)
  | .persistEvent _ _ _, choice, world =>
      match choice.raises with
      | some text => (.error (.persistFailed text), world)
      | none => (.ok choice.wrote, world)
  | .isDbAvailable, choice, world => (.ok choice.dbAvailable, world)
  | .addEvent _, _, world => (.ok (), world)
  | .updateAgent _ _ _ _, choice, world =>
      match choice.raises with
      | some text => (.error (.agentStateFailed text), world)
      | none => (.ok choice.status, world)
  | .broadcast _, choice, world =>
      match choice.raises with
      | some text => (.error (.broadcastFailed text), world)
      | none => (.ok (), world)
  | .xack stream redisId, choice, world =>
      let (answer, after) := world.onBus (busHandler .producer
        (.xack stream pipelineGroup [redisId]) (choice.commands 0) world.bus)
      ((orFailure .redisError answer).map fun _ => (), after)
  | .remember msgId, _, world =>
      (.ok (),
        { world with processedMsgIds := rememberProcessedMsgId world.processedMsgIds msgId })
  | .xadd stream fields, choice, world =>
      let (answer, after) := world.onBus (busHandler .pipeline (.xadd stream fields none)
        (choice.commands 0) world.bus)
      (orFailure .redisError answer, after)
  | .hset letter, choice, world =>
      keyReply choice .redisError () world (world.push letter.stream letter.eventId
        (letterRecord letter.stream letter.eventId letter.payload letter.error letter.retries
          choice.clock))

/-- Operations of a replay. -/
def replayOps : Handler replaySignature ReplayFailure FanOutChoice FanOutWorld
  | .hget stream eventId, choice, world =>
      keyReply choice .redisError (world.dlq stream eventId) world world
  | .xadd none _, _, world => (.error .dataError, world)
  | .xadd (some stream) fields, choice, world =>
      let (answer, after) := world.onBus (busHandler .replay (.xadd stream fields none)
        (choice.commands 0) world.bus)
      (orFailure .redisError answer, after)
  | .hdel stream eventId, choice, world =>
      keyReply choice .redisError () world (world.remove stream eventId)
  | .deleteRetries eventId, choice, world =>
      keyReply choice .redisError () world
        { world with retries := Function.update world.retries eventId none }
  | .utcNow, choice, world => (.ok choice.clock, world)

end FanOut

/-! ## Members -/

/-- The call makes groups at the end only, as every caller does. -/
def BusCall.StartsLatest : BusCall → Prop
  | .createConsumerGroup _ _ start => start = .latest
  | _ => True

inductive Member where
  | process (calls : List BusCall) (latest : ∀ call ∈ calls, call.StartsLatest)
  | outside (ops : List OutsideOp)
  | baseStream (consumer : Consumer) (name : String) (polls : ℕ)
  | multiStream (agent : MultiStreamAgent) (rounds : ℕ)
  | pipeline (rounds : ℕ)
  | replay (eventId : String)

namespace FanOut

variable (fanOut : FanOut)

def party : Member → Party FanOutChoice FanOutWorld
  | .process calls _ =>
      { signature := busSignature
        Failure := BusFailure
        Result := Unit
        handler := processHandler .producer
        program := runCalls fanOut.codec calls }
  | .outside ops =>
      { signature := outsideSignature
        Failure := Empty
        Result := Unit
        handler := upkeepHandler
        program := runOutside ops }
  | .baseStream consumer name polls =>
      { signature := consumerSignature
        Failure := ConsumerFailure
        Result := Unit
        handler := fanOut.consumerOps name 10
        program := runConsumer consumer polls }
  | .multiStream agent rounds =>
      { signature := consumerSignature
        Failure := ConsumerFailure
        Result := Unit
        handler := fanOut.consumerOps agent.consumer 20
        program := agent.run rounds }
  | .pipeline rounds =>
      { signature := pipelineSignature
        Failure := PipelineFailure
        Result := Unit
        handler := fanOut.pipelineOps
        program := fanOut.pipeline.run rounds }
  | .replay eventId =>
      { signature := replaySignature
        Failure := ReplayFailure
        Result := Bool
        handler := replayOps
        program := replay fanOut.pipeline.formatter eventId }

/-- Members that start on streams without entries and groups. -/
def system {ι : Type} (members : ι → Member) : System FanOutChoice FanOutWorld ι where
  world := {}
  party i := fanOut.party (members i)

end FanOut

end TradingControl.Events
