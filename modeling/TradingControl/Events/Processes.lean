import TradingControl.Effects.Party
import TradingControl.Events.EventBus

/-!
# Processes on the event bus

Processes that call the bus side by side, and what happens to Redis from outside.
-/

namespace TradingControl.Events

open Effects Python

inductive BusCall where
  | publish (stream : String) (event : Dict String Value) (maxlen : Option ℕ)
  | consume (stream group consumer : String) (count : ℕ)
  | acknowledge (stream group : String) (ids : List String)
  | reclaimStale (stream group consumer : String) (minIdle : ℕ)
  | createConsumerGroup (stream group : String) (start : GroupStart)
  | createGroups
  | ensureAllStreamsReady

def BusCall.program (codec : Codec) : BusCall → Bus Unit
  | .publish stream event maxlen => do
      let _ ← EventBus.publish codec stream event maxlen
  | .consume stream group consumer count => do
      let _ ← EventBus.consume codec stream group consumer count
  | .acknowledge stream group ids => do
      let _ ← EventBus.acknowledge stream group ids
  | .reclaimStale stream group consumer minIdle => do
      let _ ← EventBus.reclaimStale codec stream group consumer minIdle
  | .createConsumerGroup stream group start => EventBus.createConsumerGroup stream group start
  | .createGroups => EventBus.createGroups
  | .ensureAllStreamsReady => EventBus.ensureAllStreamsReady

/-- Calls one after another, whether or not they raise. -/
def runCalls (codec : Codec) : List BusCall → Bus Unit
  | [] => .ret ()
  | call :: rest => do
      let _ ← (call.program codec).attempt
      runCalls codec rest

/-- What happens to Redis from outside. -/
inductive OutsideOp where
  | trim (stream : String) (count : ℕ)
  | loseGroup (stream group : String)

abbrev outsideSignature : Signature where
  Op := OutsideOp
  Answer := fun _ => Unit

def outsideHandler : Handler outsideSignature Empty BusChoice BusWorld
  | .trim stream count, _, world => (.ok (), world.trim stream count)
  | .loseGroup stream group, _, world => (.ok (), world.loseGroup stream group)

def runOutside : List OutsideOp → Program outsideSignature Empty Unit
  | [] => .ret ()
  | op :: rest => do
      Program.perform (S := outsideSignature) op
      runOutside rest

inductive Process where
  | calls (list : List BusCall)
  | outside (ops : List OutsideOp)

def Process.party (codec : Codec) : Process → Party BusChoice BusWorld
  | .calls list =>
      { signature := busSignature
        Failure := BusFailure
        Result := Unit
        handler := busHandler .producer
        program := runCalls codec list }
  | .outside ops =>
      { signature := outsideSignature
        Failure := Empty
        Result := Unit
        handler := outsideHandler
        program := runOutside ops }

/-- Processes that start on streams without entries and groups. -/
def processSystem {ι : Type} (codec : Codec) (processes : ι → Process) :
    System BusChoice BusWorld ι where
  world := {}
  party i := (processes i).party codec

end TradingControl.Events
