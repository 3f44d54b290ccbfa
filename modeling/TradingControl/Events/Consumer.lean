import TradingControl.Effects.Interleaving
import TradingControl.Python.Runtime

/-!
# Stream consumers

`BaseStreamConsumer` reads messages of a stream for a consumer group, processes each of them and
acknowledges it, or counts the failure and moves the message to the dead-letter queue once it has
failed often enough.  Several consumers run side by side, on any streams and groups, and share the
failure counters and the queue.
-/

namespace TradingControl.Events

open Effects Python

/-! ## Messages and records -/

/-- A message of a stream, by the id that Redis gave it. -/
structure Message where
  id : String
  data : List (String × Value)

/-- A message as one consumer group sees it. -/
structure GroupMessage where
  stream : String
  group : String
  eventId : String
deriving DecidableEq

/-- Exceptions that a consumer meets. -/
inductive ConsumerFailure where
  | redisError
  | typeError
  /-- Raised by `process`, with its text. -/
  | processFailed (error : String)
  /-- `asyncio.TimeoutError` of `wait_for`. -/
  | timedOut
  /-- `RuntimeError` that a timeout is turned into. -/
  | processingTimeout (stream : String)
deriving DecidableEq

/-- Error text of a record in the dead-letter queue. -/
inductive DlqError where
  /-- `Invalid schema version: …`. -/
  | invalidSchemaVersion (version : Value)
  /-- `str(exc)`. -/
  | exception (error : ConsumerFailure)

/-- A record of the dead-letter queue, without the time it is written at. -/
structure DlqRecord where
  stream : String
  eventId : String
  payload : List (String × Value)
  error : DlqError
  retries : ℕ

/-! ## Operations -/

inductive ConsumerOp where
  /-- `self._running and not self._shutdown_event.is_set()`. -/
  | isRunning
  /-- `XREADGROUP`. -/
  | consume (stream group : String)
  /-- `XAUTOCLAIM`. -/
  | reclaimStale (stream group : String)
  /-- Wait for the shutdown event or the backoff, and say whether to go on. -/
  | backoffAndCheckShutdown
  /-- `wait_for(self.process(data), …)`. -/
  | process (message : GroupMessage) (data : List (String × Value))
  /-- `INCR` of the failure counter. -/
  | incr (eventId : String)
  /-- `EXPIRE` of the failure counter. -/
  | expire (eventId : String)
  /-- `GET` of the failure counter. -/
  | getRetries (eventId : String)
  /-- `HSET` of the dead-letter queue. -/
  | hset (record : DlqRecord)
  /-- `XACK`. -/
  | xack (message : GroupMessage)

abbrev ConsumerOp.Answer : ConsumerOp → Type
  | .isRunning => Bool
  | .consume _ _ => List Message
  | .reclaimStale _ _ => List Message
  | .backoffAndCheckShutdown => Bool
  | .process _ _ => Unit
  | .incr _ => ℕ
  | .expire _ => Unit
  | .getRetries _ => Option ℕ
  | .hset _ => Unit
  | .xack _ => ℕ

abbrev consumerSignature : Signature where
  Op := ConsumerOp
  Answer := ConsumerOp.Answer

/-- Programs of a consumer. -/
abbrev Consuming (α : Type) := Program consumerSignature ConsumerFailure α

/-- How a call of `process` ends. -/
inductive ProcessOutcome where
  | returned
  | raised (error : String)
  | timedOut

/-- What the environment decides about one operation. -/
structure ConsumerChoice where
  redisFails : Bool := false
  /-- The failure counter has expired or been cleared since the last command on it. -/
  counterLost : Bool := false
  outcome : ProcessOutcome := .returned
  messages : List Message := []
  running : Bool := true
  now : String := "1970-01-01T00:00:00+00:00"

/-- Redis answers, and the failure counter is as the last command left it. -/
def ConsumerChoice.healthy (choice : ConsumerChoice) : Prop :=
  choice.redisFails = false ∧ choice.counterLost = false

/-- Failure counters, and what has happened so far: records written to the dead-letter queue with
their times, acknowledgements, and calls of `process` that returned or failed. -/
structure ConsumerWorld where
  retries : String → Option ℕ
  dlqWrites : List (DlqRecord × String) := []
  acked : List GroupMessage := []
  processed : List GroupMessage := []
  failed : List GroupMessage := []

/-- Counter as a command finds it. -/
def ConsumerWorld.counter (world : ConsumerWorld) (choice : ConsumerChoice) (eventId : String) :
    Option ℕ :=
  if choice.counterLost then none else world.retries eventId

/-- Answer one operation. -/
def consumerHandler : Handler consumerSignature ConsumerFailure ConsumerChoice ConsumerWorld
  | .isRunning, choice, world => (.ok choice.running, world)
  | .consume _ _, choice, world =>
      if choice.redisFails then (.error .redisError, world) else (.ok choice.messages, world)
  | .reclaimStale _ _, choice, world =>
      if choice.redisFails then (.error .redisError, world) else (.ok choice.messages, world)
  | .backoffAndCheckShutdown, choice, world => (.ok choice.running, world)
  | .process message _, choice, world =>
      match choice.outcome with
      | .returned => (.ok (), { world with processed := world.processed ++ [message] })
      | .raised error =>
          (.error (.processFailed error), { world with failed := world.failed ++ [message] })
      | .timedOut => (.error .timedOut, { world with failed := world.failed ++ [message] })
  | .incr eventId, choice, world =>
      if choice.redisFails then (.error .redisError, world)
      else
        let retries := (world.counter choice eventId).getD 0 + 1
        (.ok retries,
          { world with retries := Function.update world.retries eventId (some retries) })
  | .expire _, choice, world =>
      if choice.redisFails then (.error .redisError, world) else (.ok (), world)
  | .getRetries eventId, choice, world =>
      if choice.redisFails then (.error .redisError, world)
      else (.ok (world.counter choice eventId), world)
  | .hset record, choice, world =>
      if choice.redisFails then (.error .redisError, world)
      else (.ok (), { world with dlqWrites := world.dlqWrites ++ [(record, choice.now)] })
  | .xack message, choice, world =>
      if choice.redisFails then (.error .redisError, world)
      else (.ok 1, { world with acked := world.acked ++ [message] })

/-! ## Event bus and dead-letter queue -/

/-- One operation as a program. -/
def await (op : ConsumerOp) : Consuming op.Answer :=
  Program.perform (S := consumerSignature) op

/-- `DLQ_MAX_RETRIES`. -/
def dlqMaxRetries : ℕ := 3

/-- `EventBus.acknowledge`: every failure is swallowed. -/
def acknowledge (message : GroupMessage) : Consuming ℕ := do
  match ← (await (.xack message)).attempt with
  | .ok count => return count
  | .error _ => return 0

/-- `DLQManager.push`. -/
def push (stream eventId : String) (payload : List (String × Value)) (error : DlqError)
    (retries : ℕ) : Consuming Unit :=
  await (.hset
    { stream := stream
      eventId := eventId
      payload := payload
      error := error
      retries := retries })

/-- `DLQManager.should_dlq`. -/
def shouldDlq (eventId : String) : Consuming Bool := do
  let retries ← await (.incr eventId)
  await (.expire eventId)
  return decide (dlqMaxRetries ≤ retries)

/-! ## Consumer -/

/-- Stream and group of a consumer. -/
structure Consumer where
  stream : String
  group : String

/-- A message as the consumer's group sees it. -/
def Consumer.message (consumer : Consumer) (eventId : String) : GroupMessage where
  stream := consumer.stream
  group := consumer.group
  eventId := eventId

/-- The message's data, with the Redis id where the producer left `msg_id` out. -/
def Message.backfilled (message : Message) : List (String × Value) :=
  if (Value.get message.data "msg_id").isNone then
    message.data ++ [("msg_id", .str message.id)]
  else message.data

/-- `data.get(SCHEMA_VERSION)`. -/
def schemaVersion (data : List (String × Value)) : Value :=
  (Value.get data "schema_version").getD .none

/-- `schema_version in ACCEPTED_SCHEMA_VERSIONS`; `none` is the exception of a value that cannot be
hashed. -/
def acceptedSchemaVersion : Value → Option Bool
  | .none => some true
  | .str version => some (version = "v3" || version = "legacy" || version = "")
  | .list _ => none
  | .dict _ => none
  | _ => some false

/-- `_process_with_timeout`. -/
def processWithTimeout (message : GroupMessage) (data : List (String × Value)) : Consuming Unit :=
  (await (.process message data)).tryCatch fun error =>
    match error with
    | .timedOut => .raise (.processingTimeout message.stream)
    | _ => .raise error

def handleFailure (message : GroupMessage) (data : List (String × Value))
    (error : ConsumerFailure) : Consuming Unit := do
  if ← shouldDlq message.eventId then
    let retries ← await (.getRetries message.eventId)
    push message.stream message.eventId data (.exception error) (retries.getD 0)
    let _ ← acknowledge message

/-- `_handle_message`. -/
def handleMessage (consumer : Consumer) (message : Message) : Consuming Unit := do
  let data := message.backfilled
  let received := consumer.message message.id
  match acceptedSchemaVersion (schemaVersion data) with
  | none => .raise .typeError
  | some false =>
      -- outside the `try`: a failure of the push reaches the consumer loop
      push consumer.stream message.id data (.invalidSchemaVersion (schemaVersion data)) 0
      let _ ← acknowledge received
  | some true =>
      match ← (do
          processWithTimeout received data
          acknowledge received).attempt with
      | .ok _ => return
      | .error error =>
          let _ ← (handleFailure received data error).attempt

/-- Handle messages while the consumer runs. -/
def handleMessages (consumer : Consumer) : List Message → Consuming Unit
  | [] => .ret ()
  | message :: rest => do
      if ← await .isRunning then
        handleMessage consumer message
        handleMessages consumer rest

/-- Body of the main loop; says whether the loop goes on. -/
def pollOnce (consumer : Consumer) : Consuming Bool := do
  match ← (do
      let messages ← await (.consume consumer.stream consumer.group)
      handleMessages consumer messages).attempt with
  | .ok () => return true
  | .error .redisError => await .backoffAndCheckShutdown
  | .error error => .raise error

/-- Main loop, up to a number of polls. -/
def poll (consumer : Consumer) : ℕ → Consuming Unit
  | 0 => .ret ()
  | polls + 1 => do
      if ← await .isRunning then
        if ← pollOnce consumer then
          poll consumer polls

/-- `_run`: stale messages first, then the main loop for a number of polls. -/
def runConsumer (consumer : Consumer) (polls : ℕ) : Consuming Unit := do
  match ← (await (.reclaimStale consumer.stream consumer.group)).attempt with
  | .ok reclaimed => handleMessages consumer reclaimed
  | .error _ => .ret ()
  poll consumer polls

end TradingControl.Events
