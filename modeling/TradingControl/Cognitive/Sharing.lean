import TradingControl.Cognitive.Runs

/-!
# The stream that is handed over

A caller may hand the loop a stream of its own, with subscribers, to read what the loop does.  The
loop works on that stream only if it already holds an event: a stream without events counts as
missing, and the loop takes a fresh one.
-/

namespace TradingControl.Cognitive

open Python

/-! ## Streams of a caller -/

/-- What a caller does with a stream before the loop gets it. -/
inductive StreamOp where
  | emit (message : Message)
  | subscribe

namespace EventStream

/-- The stream after one operation of its caller. -/
def apply (stream : EventStream) : StreamOp → EventStream
  | .emit message => stream.emit message
  | .subscribe => stream.subscribe

/-- A stream of a caller. -/
def built (maxEvents : Option ℤ) (history : List StreamOp) : EventStream :=
  history.foldl apply { maxEvents }

end EventStream

/-- The messages among the operations of a caller. -/
def sentBy (history : List StreamOp) : List Message :=
  history.filterMap fun
    | .emit message => some message
    | .subscribe => none

namespace EventStream

theorem Retains.apply_all {stream : EventStream} {sent : List Message}
    (retains : stream.Retains sent) (history : List StreamOp) :
    (history.foldl apply stream).Retains (sent ++ sentBy history) := by
  induction history generalizing stream sent with
  | nil => simpa [sentBy] using retains
  | cons operation rest induction =>
      cases operation with
      | emit message =>
          have later := induction (retains.emit message)
          rwa [List.append_assoc] at later
      | subscribe => exact induction retains.subscribe

theorem retains_built (maxEvents : Option ℤ) (history : List StreamOp) :
    (built maxEvents history).Retains (sentBy history) :=
  (retains_fresh maxEvents).apply_all history

end EventStream

/-! ## Handing over -/

/-- A loop and the stream that was handed to it. -/
structure Handing where
  loop : Loop
  handed : EventStream
  /-- The loop works on the handed stream. -/
  shared : Bool

namespace Handing

/-- `CognitiveLoop(config, stream=handed, max_events=maxEvents)`. -/
def construct (handed : EventStream) (config : CognitiveConfig) (maxEvents : ℤ) : Handing :=
  -- `stream or EventStream(...)`: the truth of a stream is that of its length
  if handed.events.isEmpty then
    { loop := .init { maxEvents := some maxEvents } config, handed := handed, shared := false }
  else
    let loop := Loop.init handed config
    { loop := loop, handed := loop.stream, shared := true }

variable (runtime : Runtime)

def perform (handing : Handing) (operation : LoopOp) : Handing :=
  let loop := handing.loop.perform runtime operation
  { loop := loop
    handed := if handing.shared then loop.stream else handing.handed
    shared := handing.shared }

def run (handing : Handing) (operations : List LoopOp) : Handing :=
  operations.foldl (perform runtime) handing

@[simp] theorem loop_run (handing : Handing) (operations : List LoopOp) :
    (handing.run runtime operations).loop = handing.loop.run runtime operations := by
  induction operations generalizing handing with
  | nil => rfl
  | cons operation rest induction => exact induction (handing.perform runtime operation)

theorem handed_run_shared (handing : Handing) (shared : handing.shared = true)
    (same : handing.handed = handing.loop.stream) (operations : List LoopOp) :
    (handing.run runtime operations).handed = (handing.run runtime operations).loop.stream := by
  induction operations generalizing handing with
  | nil => exact same
  | cons operation rest induction =>
      exact induction (handing.perform runtime operation) shared (if_pos shared)

/-- A stream that is not shared stays as it is. -/
theorem handed_run_apart (handing : Handing) (apart : handing.shared = false)
    (operations : List LoopOp) : (handing.run runtime operations).handed = handing.handed := by
  induction operations generalizing handing with
  | nil => rfl
  | cons operation rest induction =>
      refine (induction (handing.perform runtime operation) apart).trans ?_
      simp [perform, apart]

end Handing

/-- Everything the loop says in a run, from its construction on. -/
def saidBy (runtime : Runtime) (start : Loop) (operations : List LoopOp) : List Message :=
  Loop.configVersionMessage start.config none :: start.messagesDuring runtime operations

/-- The handed stream is the one source of truth: what the loop said is appended to it and delivered
to its subscribers once and in order, and it holds what its cap leaves of all that was sent to it. -/
structure OneTruth (before after : EventStream) (sent said : List Message) : Prop where
  appended : after = before.emitAll said
  delivered : after.subscribers = before.subscribers.map (· ++ numbered before.emitted said)
  emitted : after.emitted = (sent ++ said).length
  retained : after.events = CappedLog.retained after.cap (numbered 0 (sent ++ said))
  consecutive : after.events.map (·.seq) = List.range' after.dropped after.events.length
  total : after.dropped + after.events.length = after.emitted

/-- In every run, the handed stream is the source of truth exactly when it held an event when the
loop was constructed. -/
theorem oneTruth_iff (runtime : Runtime) (cap : Option ℤ) (history : List StreamOp)
    (config : CognitiveConfig) (maxEvents : ℤ) (operations : List LoopOp) :
    let handed := EventStream.built cap history
    let start := Handing.construct handed config maxEvents
    OneTruth handed (start.run runtime operations).handed (sentBy history)
        (saidBy runtime start.loop operations) ↔ handed.events ≠ [] := by
  intro handed start
  constructor
  · rintro truth empty
    have apart : start = ⟨.init { maxEvents := some maxEvents } config, handed, false⟩ :=
      if_pos (by simp [empty])
    have untouched : (start.run runtime operations).handed = handed := by
      rw [apart]
      exact Handing.handed_run_apart runtime _ rfl operations
    have grown := congrArg EventStream.emitted truth.appended
    rw [untouched, EventStream.emitted_emitAll, saidBy, List.length_cons] at grown
    omega
  · intro held
    have sharing : start = ⟨.init handed config, (Loop.init handed config).stream, true⟩ :=
      if_neg (by simpa using held)
    have appended : (start.run runtime operations).handed =
        handed.emitAll (saidBy runtime start.loop operations) := by
      rw [sharing, Handing.handed_run_shared runtime _ rfl rfl, Handing.loop_run,
        Loop.stream_run]
      rfl
    have retains := (EventStream.retains_built cap history).emitAll
      (saidBy runtime start.loop operations)
    obtain ⟨consecutive, total⟩ := retains.consecutive
    rw [← appended] at retains consecutive total
    refine ⟨appended, ?_, retains.emitted, retains.events, consecutive, total⟩
    rw [appended, EventStream.subscribers_emitAll]

/-- A subscriber of an empty stream hears nothing of the loop. -/
theorem emptyStream_ignored :
    let handed := EventStream.built (some 10) [.subscribe]
    let start := Handing.construct handed defaultConfig 100000
    (start.run Reference.runtime []).handed.subscribers = [[]] ∧
      ¬OneTruth handed (start.run Reference.runtime []).handed (sentBy [.subscribe])
        (saidBy Reference.runtime start.loop []) := by
  intro handed start
  refine ⟨rfl, fun truth => ?_⟩
  have grown := truth.emitted
  cases grown

end TradingControl.Cognitive
