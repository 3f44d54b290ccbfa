import Mathlib.Data.List.Sort
import TradingControl.Learning.DeliveredFills

/-!
# Grade agent

The grade agent keeps the last confidences of executed fills and the last profits of graded trades
in two buffers.  Its win rate is taken over the profits; its information coefficient correlates the
two, by their positions, unless the database answers.  The updater of the factor weights keeps
profits with the scores of their decisions.
-/

namespace TradingControl.Learning

open Python

-- the window lemmas say all there is to know
attribute [local irreducible] lastItems

/-! ## Correlation -/

/-- `_rank` within `spearman_correlation`, unless there are more values than ranks. -/
def rank (n : ℕ) (values : List ℚ) : Option (List ℚ) :=
  if n < values.length then none
  else
    let indexed := values.zipIdx.insertionSort fun first second => first.1 ≤ second.1
    some ((List.range n).map fun index =>
      match indexed.findIdx? fun entry => entry.2 = index with
      | some position => position + 1
      | none => 0)

/-- `spearman_correlation`, unless it raises an `IndexError`. -/
def spearmanCorrelation (xs ys : List ℚ) : Option ℚ :=
  let n := xs.length
  if n < 3 then some 0
  else do
    let rankX ← rank n xs
    let rankY ← rank n ys
    let dSqSum := (rankX.zipWith (fun rx ry => (rx - ry) ^ 2) rankY).sum
    let denom : ℚ := n * (n ^ 2 - 1)
    return if denom ≠ 0 then 1 - 6 * dSqSum / denom else 0

example : spearmanCorrelation [1, 2, 3] [10, 20, 15] = some (1 / 2) := by decide +kernel

/-! ## The grade agent -/

/-- A number, with the trade that it is of; the agent sees the number only. -/
structure Sample (τ : Type) where
  trade : τ
  value : ℚ

/-- `maxlen` of the buffers. -/
def bufferMaxlen : ℕ := 100

/-- Append to a buffer. -/
def push {α : Type} (buffer : List α) (item : α) : List α :=
  lastItems bufferMaxlen (buffer ++ [item])

/-- `buffer[-lookback:]`. -/
def recent {α : Type} (lookback : ℕ) (buffer : List α) : List α :=
  if lookback = 0 then buffer else lastItems lookback buffer

/-- `float(field or 0.5)`. -/
def floatOrHalf (field : Scalar) : Option ℚ := if field.truthy then field.toFloat else some (1 / 2)

/-- What `process` keeps of the events. -/
structure GradeAgent where
  pnlBuffer : List (Sample PublishedFill) := []
  confidenceBuffer : List (Sample PublishedFill) := []
  closeDedup : List String := []

/-- A row of the query: a trade, by its position. -/
structure IcRow where
  confidence : Option ℚ
  pnl : Option ℚ

/-- Two lists of samples that are handed to `spearman_correlation`. -/
abbrev Correlated (τ : Type) := List (Sample τ) × List (Sample τ)

def Correlated.correlation {τ : Type} (samples : Correlated τ) : Option ℚ :=
  spearmanCorrelation (samples.1.map Sample.value) (samples.2.map Sample.value)

def column (rows : List IcRow) (field : IcRow → Option ℚ) : List (Sample ℕ) :=
  rows.zipIdx.filterMap fun entry => (field entry.1).map (Sample.mk entry.2)

def databaseSamples (rows : List IcRow) : Option (Correlated ℕ) :=
  if rows.length < 3 then none
  else
    let confs := column rows IcRow.confidence
    if confs.length < 3 then none else some (confs, column rows IcRow.pnl)

namespace GradeAgent

variable (agent : GradeAgent)

/-- `process`, as far as the buffers go.  A text that is no number would raise. -/
def process (delivery : Delivery) : GradeAgent :=
  if delivery.isTrade then
    let (duplicate, seen) := isDuplicate agent.closeDedup delivery.data
    if duplicate then { agent with closeDedup := seen }
    else
      match delivery.data.pnl.toFloatOrZero with
      | none => { agent with closeDedup := seen }
      | some pnl => { agent with
          pnlBuffer := push agent.pnlBuffer ⟨delivery.fill, pnl⟩
          closeDedup := seen }
  else
    match floatOrHalf delivery.data.confidence with
    | none => agent
    | some confidence => { agent with
        confidenceBuffer := push agent.confidenceBuffer ⟨delivery.fill, confidence⟩ }

/-- The agent after events. -/
def after (deliveries : List Delivery) : GradeAgent := deliveries.foldl process {}

/-- `_win_rate`. -/
def winRate (lookback : ℕ) : ℚ :=
  let recent := recent lookback agent.pnlBuffer
  if recent = [] then 1 / 2 else recent.countP (0 < ·.value) / recent.length

def bufferSamples (lookback : ℕ) : Option (Correlated PublishedFill) :=
  let paired := (recent lookback agent.confidenceBuffer).zip (recent lookback agent.pnlBuffer)
  if paired.length < 3 then none else some (paired.map Prod.fst, paired.map Prod.snd)

/-- `_information_coefficient`; without rows the database is unavailable, or its query fails. -/
def informationCoefficient (lookback : ℕ) (rows : Option (List IcRow)) : ℚ :=
  match (rows.bind databaseSamples).bind Correlated.correlation with
  | some ic => ic
  | none =>
      match agent.bufferSamples lookback with
      | none => 0
      | some samples => samples.correlation.getD 0

end GradeAgent

/-! ## The updater of the factor weights -/

/-- `maxlen` of the buffer of scores and profits. -/
def scorePnlMaxlen : ℕ := 200

structure IcUpdater where
  scorePnlBuffer : List (ℚ × ℚ) := []
  closeDedup : List String := []

namespace IcUpdater

variable (updater : IcUpdater)

/-- `process` of an event of a trade stream, with the composite score that is found for it. -/
def process (event : Delivery × ℚ) : IcUpdater :=
  let (delivery, compositeScore) := event
  if delivery.isTrade then
    let (duplicate, seen) := isDuplicate updater.closeDedup delivery.data
    if duplicate then { updater with closeDedup := seen }
    else
      match delivery.data.pnl.toFloatOrZero with
      | none => { updater with closeDedup := seen }
      | some pnl => {
          scorePnlBuffer :=
            lastItems scorePnlMaxlen (updater.scorePnlBuffer ++ [(compositeScore, pnl)])
          closeDedup := seen }
  else updater

def after (events : List (Delivery × ℚ)) : IcUpdater := events.foldl process {}

/-- The pairs that `_recompute_and_publish` correlates. -/
def series : List (ℚ × ℚ) :=
  let lookback := min updater.scorePnlBuffer.length 100
  lastItems lookback updater.scorePnlBuffer

end IcUpdater

/-! ## What the buffers hold -/

namespace Delivery

/-- What a trade event adds to the profits. -/
def pnl (delivery : Delivery) : ℚ :=
  match delivery with
  | .execution fill => fill.ctx.pnlValue.getD 0
  | .performance fill => fill.ctx.pnlValue.getD 0
  | .completed fill _ => fill.ctx.realizedPnl

theorem toFloatOrZero_pnl (delivery : Delivery) :
    delivery.data.pnl.toFloatOrZero = some delivery.pnl := by
  cases delivery with
  | execution fill | performance fill =>
      simp only [data, pnl]
      cases fill.ctx.pnlValue <;> rfl
  | completed fill closes => rfl

def pnlSample (delivery : Delivery) : Sample PublishedFill := ⟨delivery.fill, delivery.pnl⟩

def confidenceSample (delivery : Delivery) : Sample PublishedFill :=
  ⟨delivery.fill, delivery.fill.ctx.signalConfidence⟩

end Delivery

/-- The events of executions. -/
def executed (deliveries : List Delivery) : List Delivery :=
  deliveries.filter fun delivery => !delivery.isTrade

theorem push_lastItems {α : Type} (items : List α) (item : α) :
    push (lastItems bufferMaxlen items) item = lastItems bufferMaxlen (items ++ [item]) :=
  lastItems_append_singleton items item

theorem Delivery.floatOrHalf_confidence (delivery : Delivery)
    (execution : delivery.isTrade = false) :
    floatOrHalf delivery.data.confidence = some delivery.fill.ctx.signalConfidence := by
  cases delivery with
  | execution fill => rfl
  | performance fill | completed fill closes => cases execution

namespace GradeAgent

theorem process_execution (agent : GradeAgent) {delivery : Delivery}
    (execution : delivery.isTrade = false) :
    agent.process delivery = { agent with
      confidenceBuffer := push agent.confidenceBuffer delivery.confidenceSample } := by
  simp [process, execution, delivery.floatOrHalf_confidence execution, Delivery.confidenceSample]

theorem process_trade (agent : GradeAgent) {delivery : Delivery}
    (isTrade : delivery.isTrade = true) :
    agent.process delivery =
      let verdict := isDuplicate agent.closeDedup delivery.data
      if verdict.1 then { agent with closeDedup := verdict.2 }
      else { agent with
        pnlBuffer := push agent.pnlBuffer delivery.pnlSample
        closeDedup := verdict.2 } := by
  simp [process, isTrade, delivery.toFloatOrZero_pnl, Delivery.pnlSample]

/-- The buffer of confidences holds the last executions, whatever the trades were. -/
theorem confidenceBuffer_foldl (deliveries : List Delivery) {agent : GradeAgent}
    {before : List (Sample PublishedFill)}
    (holds : agent.confidenceBuffer = lastItems bufferMaxlen before) :
    (deliveries.foldl process agent).confidenceBuffer = lastItems bufferMaxlen
      (before ++ (executed deliveries).map Delivery.confidenceSample) := by
  induction deliveries generalizing agent before with
  | nil => simpa [executed] using holds
  | cons delivery deliveries induction =>
      rw [List.foldl_cons]
      cases isTrade : delivery.isTrade with
      | false =>
          have kept : executed (delivery :: deliveries) = delivery :: executed deliveries :=
            List.filter_cons_of_pos (by simp [isTrade])
          have pushed : push agent.confidenceBuffer delivery.confidenceSample =
              lastItems bufferMaxlen (before ++ [delivery.confidenceSample]) := by
            rw [holds, push_lastItems]
          rw [kept, process_execution agent isTrade, induction pushed, List.map_cons,
            List.append_assoc, List.singleton_append]
      | true =>
          have kept : executed (delivery :: deliveries) = executed deliveries :=
            List.filter_cons_of_neg (by simp [isTrade])
          rw [kept, process_trade agent isTrade]
          dsimp only
          split
          · exact induction holds
          · exact induction holds

/-- The buffer of profits holds the last trades that were let through. -/
theorem pnlBuffer_after (deliveries : List Delivery) :
    (after deliveries).pnlBuffer =
      lastItems bufferMaxlen ((graded id [] deliveries).map Delivery.pnlSample) := by
  have keeps : KeepsLast id process closeDedup pnlBuffer bufferMaxlen Delivery.pnlSample := by
    constructor
    · intro agent delivery (execution : delivery.isTrade = false)
      rw [process_execution agent execution]
      exact ⟨rfl, rfl⟩
    · intro agent delivery (isTrade : delivery.isTrade = true)
      rw [process_trade agent isTrade]
      dsimp only [id_eq]
      split
      · exact ⟨rfl, rfl⟩
      · exact ⟨rfl, rfl⟩
  exact keeps.foldl_nil deliveries rfl rfl

theorem confidenceBuffer_after (deliveries : List Delivery) :
    (after deliveries).confidenceBuffer =
      lastItems bufferMaxlen ((executed deliveries).map Delivery.confidenceSample) := by
  have empty : ({} : GradeAgent).confidenceBuffer = lastItems bufferMaxlen [] :=
    (lastItems_nil bufferMaxlen).symm
  rw [after, confidenceBuffer_foldl deliveries empty, List.nil_append]

end GradeAgent

namespace IcUpdater

/-- The score and the profit that an event adds. -/
def scorePnl (event : Delivery × ℚ) : ℚ × ℚ := (event.2, event.1.pnl)

theorem process_trade (updater : IcUpdater) {event : Delivery × ℚ}
    (isTrade : event.1.isTrade = true) :
    updater.process event =
      let verdict := isDuplicate updater.closeDedup event.1.data
      if verdict.1 then { updater with closeDedup := verdict.2 }
      else {
        scorePnlBuffer := lastItems scorePnlMaxlen (updater.scorePnlBuffer ++ [scorePnl event])
        closeDedup := verdict.2 } := by
  simp [process, isTrade, event.1.toFloatOrZero_pnl, scorePnl]

/-- The buffer holds the last trades that were let through. -/
theorem scorePnlBuffer_after (events : List (Delivery × ℚ)) :
    (after events).scorePnlBuffer =
      lastItems scorePnlMaxlen ((graded Prod.fst [] events).map scorePnl) := by
  have keeps : KeepsLast Prod.fst process closeDedup scorePnlBuffer scorePnlMaxlen scorePnl := by
    constructor
    · intro updater event execution
      rw [process, if_neg (by simp [execution])]
      exact ⟨rfl, rfl⟩
    · intro updater event isTrade
      rw [process_trade updater isTrade]
      dsimp only
      split
      · exact ⟨rfl, rfl⟩
      · exact ⟨rfl, rfl⟩
  exact keeps.foldl_nil events rfl rfl

end IcUpdater

end TradingControl.Learning
