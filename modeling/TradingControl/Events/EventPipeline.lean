import TradingControl.Events.Consumer
import TradingControl.Events.Replay
import TradingControl.Python.Operators

/-!
# Broadcast pipeline

`EventPipeline` reads every stream for a group of its own, persists an event as far as it can,
broadcasts it and acknowledges it.  An event that fails is appended to its stream again with a
higher retry count, or goes to the dead-letter queue.
-/

namespace TradingControl.Events

open Effects Python

/-! ## Messages that the pipeline sends -/

/-- What the broadcaster is given. -/
inductive Broadcast where
  | event (stream msgId eventType : String) (payload : Dict String Value) (timestamp : String)
  | agentStatus (msgId : String) (status : Value) (timestamp : String)
  | dlqEvent (msgId error timestamp : String) (payload : Dict String Value)

/-- An entry of the events feed. -/
structure FeedEvent where
  id : String
  kind : String
  source : String
  createdAt : String

/-- A record that the pipeline pushes to the dead-letter queue. -/
structure DeadLetter where
  stream : String
  eventId : String
  payload : Dict String Value
  error : String
  retries : ℤ

/-! ## Operations -/

/-- Exceptions of the pipeline. -/
inductive PipelineFailure where
  | redisError
  | broadcastFailed (text : String)
  | persistFailed (text : String)
  | agentStateFailed (text : String)
  | raised (error : Raised)

inductive PipelineOp where
  /-- `self._running`. -/
  | isRunning
  /-- `EventBus.consume`, which answers a failure with no message. -/
  | consume (stream : String)
  | utcNow
  /-- `msg_id in self._processed_msg_id_set`. -/
  | isProcessed (msgId : String)
  /-- `_persist_event`: whether the event landed in `event_history`. -/
  | persistEvent (stream msgId : String) (event : Dict String Value)
  | isDbAvailable
  /-- `add_event` of the runtime store. -/
  | addEvent (event : FeedEvent)
  /-- `AgentStateRegistry.update`. -/
  | updateAgent (name status health lastTask : String)
  | broadcast (data : Broadcast)
  | xack (stream redisId : String)
  /-- `_remember_processed_msg_id`. -/
  | remember (msgId : String)
  | xadd (stream : String) (fields : List (String × String))
  /-- `HSET` of the dead-letter queue. -/
  | hset (letter : DeadLetter)

abbrev PipelineOp.Answer : PipelineOp → Type
  | .isRunning => Bool
  | .consume _ => List Message
  | .utcNow => String
  | .isProcessed _ => Bool
  | .persistEvent _ _ _ => Bool
  | .isDbAvailable => Bool
  | .updateAgent _ _ _ _ => Value
  | .xadd _ _ => String
  | _ => Unit

abbrev pipelineSignature : Signature where
  Op := PipelineOp
  Answer := PipelineOp.Answer

/-- Programs of the pipeline. -/
abbrev Piping (α : Type) := Program pipelineSignature PipelineFailure α

/-- One operation as a program. -/
def pipe (op : PipelineOp) : Piping op.Answer := Program.perform (S := pipelineSignature) op

/-! ## Pipeline -/

/-- `EventPipeline`, as it is built. -/
structure EventPipeline where
  runtime : Runtime
  formatter : Formatter
  /-- `str(exc)`. -/
  errorText : PipelineFailure → String
  maxRetries : ℤ := 3
  /-- An agent state registry was given. -/
  tracksAgents : Bool := true

namespace EventPipeline

variable (pipeline : EventPipeline)

/-- `str(event.get(key) or default)`. -/
def textOr (event : Dict String Value) (key default : String) : String :=
  pipeline.runtime.str (Value.orElse (event.lookup key) (.str default))

/-- `str(event.get(TYPE) or stream)`. -/
def eventType (stream : String) (event : Dict String Value) : String :=
  pipeline.textOr event "type" stream

/-- `str(event.get(MSG_ID) or redis_id)`. -/
def msgId (message : Message) : String := pipeline.textOr message.data "msg_id" message.id

/-- `int(event.get(RETRY_COUNT) or 0)`. -/
def retryCount (event : Dict String Value) : Except Raised ℤ :=
  pipeline.runtime.toInt (Value.orElse (event.lookup "retry_count") (.int 0))

def retried (event : Dict String Value) (retryCount : ℤ) : Dict String Value :=
  Dict.set "retry_count" (.int (retryCount + 1)) event

/-- `EventBus.acknowledge`: every failure is swallowed. -/
def acknowledge (stream redisId : String) : Piping Unit := do
  let _ ← (pipe (.xack stream redisId)).attempt

/-- `EventBus.publish`: the message id, or `none` where the append failed. -/
def publish (stream : String) (event : Dict String Value) : Piping (Option String) := do
  let now ← pipe .utcNow
  match ← (pipe (.xadd stream (eventFields pipeline.formatter event now))).attempt with
  | .ok messageId => return some messageId
  | .error _ => return none

/-- The payload of an event that has one, and the event itself otherwise. -/
def agentPayload (event : Dict String Value) : Dict String Value :=
  match event.lookup "payload" with
  | some (.dict payload) => payload
  | _ => event

/-- Tell the dashboard about the agent that the event names. -/
def trackAgent (event : Dict String Value) (eventType msgId : String) : Piping Unit := do
  let payload := agentPayload event
  let agentName := Value.orElse (payload.lookup "agent_name") ((payload.lookup "agent").getD .none)
  if agentName.truthy then
    let agentStatus ← pipe (.updateAgent (pipeline.runtime.str agentName)
      (pipeline.textOr payload "status" "running") (pipeline.textOr payload "health" "ok")
      (pipeline.textOr payload "last_task" eventType))
    let now ← pipe .utcNow
    pipe (.broadcast (.agentStatus msgId agentStatus now))

/-- `_persist_event`, whose exceptions are skipped. -/
def persistBestEffort (stream msgId : String) (event : Dict String Value) : Piping Bool := do
  match ← (pipe (.persistEvent stream msgId event)).attempt with
  | .ok wroteEventHistory => return wroteEventHistory
  | .error _ => return false

/-- `_process_message` up to the broadcast of the event. -/
def prepare (stream : String) (message : Message) (eventType msgId ts : String) : Piping Unit := do
  let wroteEventHistory ← persistBestEffort stream msgId message.data
  let dbAvailable ← pipe .isDbAvailable
  if !dbAvailable && !wroteEventHistory then
    pipe (.addEvent
      { id := msgId
        kind := eventType
        source := pipeline.textOr message.data "source" stream
        createdAt := ts })
  if pipeline.tracksAgents then
    pipeline.trackAgent message.data eventType msgId

/-- `_process_message`. -/
def processMessage (stream : String) (message : Message) (eventType msgId ts : String) :
    Piping Unit := do
  if ← pipe (.isProcessed msgId) then
    acknowledge stream message.id
  else
    pipeline.prepare stream message eventType msgId ts
    pipe (.broadcast (.event stream msgId eventType message.data ts))
    acknowledge stream message.id
    pipe (.remember msgId)

/-- What `_process_with_retry` does about a failure. -/
def handleFailure (stream : String) (message : Message) (msgId : String) (retryCount : ℤ)
    (failure : PipelineFailure) : Piping Unit := do
  let error := pipeline.errorText failure
  if retryCount + 1 < pipeline.maxRetries then
    let _ ← pipeline.publish stream (retried message.data retryCount)
    acknowledge stream message.id
  else
    pipe (.hset
      { stream := stream
        eventId := msgId
        payload := message.data
        error := error
        retries := retryCount + 1 })
    acknowledge stream message.id
    let now ← pipe .utcNow
    pipe (.broadcast (.dlqEvent msgId error now message.data))

/-- `_process_with_retry`. -/
def processWithRetry (stream : String) (message : Message) : Piping Unit := do
  let event := message.data
  let eventType := pipeline.eventType stream event
  let msgId := pipeline.msgId message
  let ts ←
    if (Value.orElse (event.lookup "timestamp") .none).truthy then
      pure (pipeline.textOr event "timestamp" "")
    else pipe .utcNow
  match pipeline.retryCount event with
  | .error error => .raise (.raised error)
  | .ok retryCount =>
      match ← (pipeline.processMessage stream message eventType msgId ts).attempt with
      | .ok _ => return
      | .error failure => pipeline.handleFailure stream message msgId retryCount failure

/-- `_process_with_retry` once the time is known. -/
def processCounted (stream : String) (message : Message) (ts : String) : Piping Unit :=
  match pipeline.retryCount message.data with
  | .error error => .raise (.raised error)
  | .ok retryCount =>
      (pipeline.processMessage stream message (pipeline.eventType stream message.data)
        (pipeline.msgId message) ts).attempt.bind fun outcome =>
          match outcome with
          | .ok _ => .ret ()
          | .error failure => pipeline.handleFailure stream message (pipeline.msgId message)
              retryCount failure

theorem processWithRetry_eq (stream : String) (message : Message) :
    pipeline.processWithRetry stream message =
      if (Value.orElse (message.data.lookup "timestamp") .none).truthy = true then
        pipeline.processCounted stream message (pipeline.textOr message.data "timestamp" "")
      else (pipe .utcNow).bind (pipeline.processCounted stream message) := by
  rw [processWithRetry]
  split <;> rfl

def processAll (stream : String) : List Message → Piping Unit
  | [] => .ret ()
  | message :: rest => do
      pipeline.processWithRetry stream message
      processAll stream rest

/-- Every stream once, while the pipeline runs. -/
def pollStreams : List String → Piping Unit
  | [] => .ret ()
  | stream :: rest => do
      if ← pipe .isRunning then
        let messages ← pipe (.consume stream)
        pipeline.processAll stream messages
        pollStreams rest

/-- `_run`, up to a number of rounds. -/
def run : ℕ → Piping Unit
  | 0 => .ret ()
  | rounds + 1 => do
      if ← pipe .isRunning then
        pipeline.pollStreams streams
        run rounds

end EventPipeline

/-! ## World -/

/-- What the environment decides about one operation. -/
structure PipelineChoice where
  /-- What becomes of a Redis command. -/
  reply : Reply := .answered
  /-- The text of an exception that a broadcast, a persist or an update raises. -/
  raises : Option String := none
  running : Bool := true
  messages : List Message := []
  now : String := "1970-01-01T00:00:00+00:00"
  messageId : String := "0-1"
  dbAvailable : Bool := true
  wrote : Bool := false
  status : Value := .none

/-- Something that has happened. -/
inductive Happening where
  | delivered (stream : String) (message : Message)
  | broadcast (data : Broadcast)
  | deadLettered (letter : DeadLetter)
  | appended (entry : Entry)
  | acknowledged (stream redisId : String)

/-- The ids remembered as processed, from the oldest, and what has happened. -/
structure PipelineWorld where
  processedMsgIds : List String := []
  history : List Happening := []

/-- `_remember_processed_msg_id`: five thousand ids are kept. -/
def rememberProcessedMsgId (ids : List String) (msgId : String) : List String :=
  if msgId ∈ ids then ids
  else (if ids.length = 5000 then ids.drop 1 else ids) ++ [msgId]

theorem mem_of_mem_rememberProcessedMsgId {ids : List String} {msgId held : String}
    (member : held ∈ rememberProcessedMsgId ids msgId) : held ∈ ids ∨ held = msgId := by
  simp only [rememberProcessedMsgId] at member
  split at member
  · exact .inl member
  · rcases List.mem_append.mp member with old | new
    · split at old
      · exact .inl (List.mem_of_mem_drop old)
      · exact .inl old
    · exact .inr (List.mem_singleton.mp new)

namespace PipelineWorld

def record (world : PipelineWorld) (happening : Happening) : PipelineWorld :=
  { world with history := world.history ++ [happening] }

end PipelineWorld

/-- A Redis command that takes effect unless it is lost. -/
def redisReply {α : Type} (choice : PipelineChoice) (answer : α) (before after : PipelineWorld) :
    Except PipelineFailure α × PipelineWorld :=
  match choice.reply with
  | .answered => (.ok answer, after)
  | .lost => (.error .redisError, before)
  | .unacknowledged => (.error .redisError, after)

/-- Answer one operation. -/
def pipelineHandler : Handler pipelineSignature PipelineFailure PipelineChoice PipelineWorld
  | .isRunning, choice, world => (.ok choice.running, world)
  | .consume stream, choice, world =>
      (.ok choice.messages,
        { world with history := world.history ++ choice.messages.map (.delivered stream) })
  | .utcNow, choice, world => (.ok choice.now, world)
  | .isProcessed msgId, _, world => (.ok (decide (msgId ∈ world.processedMsgIds)), world)
  | .persistEvent _ _ _, choice, world =>
      match choice.raises with
      | some text => (.error (.persistFailed text), world)
      | none => (.ok choice.wrote, world)
  | .isDbAvailable, choice, world => (.ok choice.dbAvailable, world)
  | .addEvent _, _, world => (.ok (), world)
  | .updateAgent _ _ _ _, choice, world =>
      match choice.raises with
      | some text => (.error (.agentStateFailed text), world)
      | none => (.ok choice.status, world)
  | .broadcast data, choice, world =>
      match choice.raises with
      | some text => (.error (.broadcastFailed text), world)
      | none => (.ok (), world.record (.broadcast data))
  | .xack stream redisId, choice, world =>
      redisReply choice () world (world.record (.acknowledged stream redisId))
  | .remember msgId, _, world =>
      (.ok (),
        { world with processedMsgIds := rememberProcessedMsgId world.processedMsgIds msgId })
  | .xadd stream fields, choice, world =>
      redisReply choice choice.messageId world (world.record (.appended ⟨stream, fields⟩))
  | .hset letter, choice, world =>
      redisReply choice () world (world.record (.deadLettered letter))

end TradingControl.Events
