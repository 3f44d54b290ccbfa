import TradingControl.Events.Consumer

/-!
# Agents that read several streams

`MultiStreamAgent` reads every one of its streams for a consumer group of its own.  A message whose
processing fails goes to the dead-letter queue at once.
-/

namespace TradingControl.Events

open Effects Python

/-- `DEFAULT_GROUP`. -/
def defaultGroup : String := "workers"

/-- Streams and name of an agent. -/
structure MultiStreamAgent where
  streams : List String
  consumer : String

namespace MultiStreamAgent

/-- `f"{DEFAULT_GROUP}:{consumer}"`. -/
def group (agent : MultiStreamAgent) : String := defaultGroup ++ ":" ++ agent.consumer

/-- A message of a stream as the agent's group sees it. -/
def message (agent : MultiStreamAgent) (stream eventId : String) : GroupMessage where
  stream := stream
  group := agent.group
  eventId := eventId

/-- One message of a stream: every exception ends here. -/
def handleMessage (agent : MultiStreamAgent) (stream : String) (message : Message) :
    Consuming Unit := do
  let received := agent.message stream message.id
  match ← (do
      await (.process received message.data)
      acknowledge received).attempt with
  | .ok _ => return
  | .error error =>
      let _ ← (do
        push stream message.id message.data (.exception error) 1
        acknowledge received).attempt

def handleMessages (agent : MultiStreamAgent) (stream : String) : List Message → Consuming Unit
  | [] => .ret ()
  | message :: rest => do
      agent.handleMessage stream message
      handleMessages agent stream rest

/-- Every stream once. -/
def pollStreams (agent : MultiStreamAgent) : List String → Consuming Unit
  | [] => .ret ()
  | stream :: rest => do
      let messages ← await (.consume stream agent.group)
      agent.handleMessages stream messages
      pollStreams agent rest

/-- `_run`, up to a number of rounds. -/
def run (agent : MultiStreamAgent) : ℕ → Consuming Unit
  | 0 => .ret ()
  | rounds + 1 => do
      if ← await .isRunning then
        agent.pollStreams agent.streams
        run agent rounds

end MultiStreamAgent

end TradingControl.Events
