import TradingControl.Execution.ExecutionEngine
import TradingControl.Python.Window

/-!
# Fills as they are delivered

A fill is published on the stream of executions and on that of trade performance, and one that
closes a round trip on that of completed trades too.  An agent that reads both trade streams lets
each close through once.
-/

namespace TradingControl.Learning

open Python

/-! ## Published fills -/

/-- A fill of the engine: it has a realized PnL exactly if it closes a round trip. -/
structure PublishedFill where
  ctx : FillContext
  realizes : ctx.pnlValue = if ctx.isRoundTripClose then some ctx.realizedPnl else none

def PublishedFill.ofEngine (config : Config) (data : Decision) (order : Order) (prior : Position)
    (orderId : String) (qty fillPrice confidence : ℚ) (filledAt : String) (decisionCostUsd : ℚ) :
    PublishedFill where
  ctx := fillContext config data order prior orderId qty fillPrice confidence filledAt
    decisionCostUsd
  realizes := by
    simp only [fillContext]
    congr

/-- A fill of one unit at a price of 100, which closes a round trip if it has a realized PnL. -/
def PublishedFill.ofUnit (orderId traceId side : String) (confidence : ℚ) (realized : Option ℚ) :
    PublishedFill where
  ctx := {
    orderId := orderId, strategyId := "momentum", symbol := "BTC/USD", side := side
    qty := 1, price := 100, fillPrice := 100, entryPrice := 100 - realized.getD 0
    signalConfidence := confidence
    pnlValue := realized, pnlPercent := realized.getD 0, realizedPnl := realized.getD 0
    isRoundTripClose := realized.isSome
    idempotencyKey := orderId, traceId := traceId, vwapPlan := none
    filledAt := "2025-01-02T15:04:05+00:00"
    modelUsed := "", primaryEdge := "", decisionCostUsd := 0 }
  realizes := by cases realized <;> rfl

/-- The fill closes a round trip; the others open a position. -/
def PublishedFill.closes (fill : PublishedFill) : Bool := fill.ctx.isRoundTripClose

/-- An event of `publish_fill_events` that a learning agent reads. -/
inductive Delivery where
  | execution (fill : PublishedFill)
  | performance (fill : PublishedFill)
  | completed (fill : PublishedFill) (closes : fill.closes = true)

def PublishedFill.deliveries (fill : PublishedFill) : List Delivery :=
  [.execution fill, .performance fill] ++
    if closes : fill.closes = true then [.completed fill closes] else []

/-- The fields of an event that the agents read, as the bus delivers them. -/
structure EventData where
  traceId : String
  pnl : Scalar
  confidence : Scalar := .absent

/-- A number that the bus has carried as text; what is missing is the empty text. -/
def viaBus : Option ℚ → Scalar
  | none => .absent
  | some value => .text (some value)

namespace Delivery

def fill : Delivery → PublishedFill
  | .execution fill => fill
  | .performance fill => fill
  | .completed fill _ => fill

def data : Delivery → EventData
  | .execution fill => {
      traceId := fill.ctx.traceId
      pnl := viaBus fill.ctx.pnlValue
      confidence := viaBus (some fill.ctx.signalConfidence) }
  | .performance fill => { traceId := fill.ctx.traceId, pnl := viaBus fill.ctx.pnlValue }
  | .completed fill _ => { traceId := fill.ctx.traceId, pnl := viaBus (some fill.ctx.realizedPnl) }

/-- The event is on one of the trade streams. -/
def isTrade : Delivery → Bool
  | .execution _ => false
  | _ => true

end Delivery

/-! ## Paired closes -/

/-- `max_traces`. -/
def maxTraces : ℕ := 500

/-- `PairedCloseDeduper.is_duplicate`, and the traces that it remembers, the oldest first. -/
def isDuplicate (seen : List String) (data : EventData) : Bool × List String :=
  if data.traceId = "" ∨ data.pnl = .absent then (false, seen)
  else if data.traceId ∈ seen then (true, seen.erase data.traceId ++ [data.traceId])
  else (false, lastItems maxTraces (seen ++ [data.traceId]))

/-- The trade events that an agent lets through, from those that it receives. -/
def graded {α : Type} (delivery : α → Delivery) : List String → List α → List α
  | _, [] => []
  | seen, event :: events =>
      if (delivery event).isTrade then
        let (duplicate, seen) := isDuplicate seen (delivery event).data
        if duplicate then graded delivery seen events
        else event :: graded delivery seen events
      else graded delivery seen events

theorem PublishedFill.pnlValue_opening (fill : PublishedFill) (opens : fill.closes = false) :
    fill.ctx.pnlValue = none := by
  rw [fill.realizes]
  exact if_neg (Bool.eq_false_iff.mp opens)

theorem PublishedFill.pnlValue_closing (fill : PublishedFill) (closes : fill.closes = true) :
    fill.ctx.pnlValue = some fill.ctx.realizedPnl := by
  rw [fill.realizes]
  exact if_pos closes

theorem isDuplicate_opening {delivery : Delivery} (opens : delivery.fill.closes = false)
    (seen : List String) : isDuplicate seen delivery.data = (false, seen) := by
  have absent : delivery.data.pnl = .absent := by
    cases delivery with
    | execution fill | performance fill =>
        rw [Delivery.data, fill.pnlValue_opening opens, viaBus]
    | completed fill closes => cases closes.symm.trans opens
  rw [isDuplicate, if_pos (Or.inr absent)]

/-- Without the opening fills the same closes are let through. -/
theorem graded_filter {α : Type} (delivery : α → Delivery) (seen : List String) (events : List α) :
    graded delivery seen (events.filter fun event => (delivery event).fill.closes) =
      (graded delivery seen events).filter fun event => (delivery event).fill.closes := by
  induction events generalizing seen with
  | nil => rfl
  | cons event events induction =>
      cases closes : (delivery event).fill.closes with
      | false =>
          rw [List.filter_cons_of_neg (by simp [closes]), induction, graded,
            isDuplicate_opening closes]
          split
          · exact (List.filter_cons_of_neg (by simp [closes])).symm
          · rfl
      | true =>
          rw [List.filter_cons_of_pos (by simpa using closes), graded, graded]
          split
          · dsimp only
            split
            · exact induction _
            · rw [List.filter_cons_of_pos (by simpa using closes), induction]
          · exact induction _

theorem graded_sublist {α : Type} (delivery : α → Delivery) (seen : List String)
    (events : List α) : (graded delivery seen events).Sublist events := by
  induction events generalizing seen with
  | nil => exact List.Sublist.refl []
  | cons event events induction =>
      rw [graded]
      split
      · dsimp only
        split
        · exact (induction _).cons event
        · exact (induction _).cons_cons event
      · exact (induction _).cons event

/-! ## Agents that keep the last closes -/

variable {σ α β : Type}

def remembered (delivery : α → Delivery) (seen : List String) (event : α) : List String :=
  if (delivery event).isTrade then (isDuplicate seen (delivery event).data).2 else seen

theorem graded_append (delivery : α → Delivery) (seen : List String) (events more : List α) :
    graded delivery seen (events ++ more) = graded delivery seen events ++
      graded delivery (events.foldl (remembered delivery) seen) more := by
  induction events generalizing seen with
  | nil => rfl
  | cons event events induction =>
      rw [List.cons_append, graded, graded, List.foldl_cons, remembered]
      split
      · dsimp only
        split
        · exact induction _
        · rw [induction, List.cons_append]
      · exact induction _

/-- What a trade event adds to those that are let through. -/
theorem graded_trade {delivery : α → Delivery} {event : α}
    (isTrade : (delivery event).isTrade = true) (seen : List String) (events : List α) :
    graded delivery seen (event :: events) =
      if (isDuplicate seen (delivery event).data).1 then
        graded delivery (isDuplicate seen (delivery event).data).2 events
      else event :: graded delivery (isDuplicate seen (delivery event).data).2 events := by
  rw [graded, if_pos isTrade]

theorem graded_execution {delivery : α → Delivery} {event : α}
    (execution : (delivery event).isTrade = false) (seen : List String) (events : List α) :
    graded delivery seen (event :: events) = graded delivery seen events := by
  rw [graded, if_neg (by simp [execution])]

/-- The steps of an agent that appends an item of each trade it lets through to a buffer, which
holds the last `count` of them. -/
structure KeepsLast (delivery : α → Delivery) (step : σ → α → σ) (seen : σ → List String)
    (buffer : σ → List β) (count : ℕ) (item : α → β) : Prop where
  execution : ∀ state event, (delivery event).isTrade = false →
    seen (step state event) = seen state ∧ buffer (step state event) = buffer state
  trade : ∀ state event, (delivery event).isTrade = true →
    seen (step state event) = (isDuplicate (seen state) (delivery event).data).2 ∧
      buffer (step state event) =
        if (isDuplicate (seen state) (delivery event).data).1 then buffer state
        else lastItems count (buffer state ++ [item event])

namespace KeepsLast

variable {delivery : α → Delivery} {step : σ → α → σ} {seen : σ → List String}
  {buffer : σ → List β} {count : ℕ} {item : α → β}

theorem foldl (keeps : KeepsLast delivery step seen buffer count item) (events : List α)
    {state : σ} {before : List β} (holds : buffer state = lastItems count before) :
    buffer (events.foldl step state) =
      lastItems count (before ++ (graded delivery (seen state) events).map item) := by
  induction events generalizing state before with
  | nil => simpa [graded] using holds
  | cons event events induction =>
      rw [List.foldl_cons]
      cases isTrade : (delivery event).isTrade with
      | false =>
          obtain ⟨sameSeen, sameBuffer⟩ := keeps.execution state event isTrade
          rw [induction (sameBuffer.trans holds), sameSeen, graded_execution isTrade]
      | true =>
          obtain ⟨nextSeen, nextBuffer⟩ := keeps.trade state event isTrade
          rw [graded_trade isTrade]
          cases duplicate : (isDuplicate (seen state) (delivery event).data).1 with
          | true =>
              rw [duplicate, if_pos rfl] at nextBuffer
              rw [induction (nextBuffer.trans holds), nextSeen, if_pos rfl]
          | false =>
              rw [duplicate, if_neg Bool.false_ne_true, holds,
                lastItems_append_singleton] at nextBuffer
              rw [induction nextBuffer, nextSeen, if_neg Bool.false_ne_true, List.map_cons,
                List.append_assoc, List.singleton_append]

theorem foldl_nil (keeps : KeepsLast delivery step seen buffer count item) (events : List α)
    {state : σ} (unseen : seen state = []) (empty : buffer state = []) :
    buffer (events.foldl step state) = lastItems count ((graded delivery [] events).map item) := by
  have holds : buffer state = lastItems count [] := by rw [empty, lastItems_nil]
  rw [keeps.foldl events holds, unseen, List.nil_append]

end KeepsLast

end TradingControl.Learning
