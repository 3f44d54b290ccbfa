import TradingControl.Execution.LongOnly

/-!
# Protective closes of the risk guardian

The guardian asks for the whole position with a size fraction of one, meaning all of it.  The engine
takes the fraction for a Kelly fraction of cash and replaces the quantity by what the cash would
buy, so a close flattens only where that is no less than the position.
-/

namespace TradingControl
namespace RiskGuardian

open Python

/-- `_publish_close`: a decision with maximum scores for a whole position. -/
def closeDecision (symbol action : String) (qty price : ℚ)
    (strategyId reason timestamp traceId : String) : Decision where
  source := some "risk_guardian"
  strategyId := some strategyId
  symbol := some symbol
  action := some action
  signalConfidence := .number 1
  reasoningScore := .number 1
  qty := .number qty
  price := .number price
  timestamp := some timestamp
  traceId := some traceId
  primaryEdge := some ("risk_guardian:" ++ reason)
  -- close the entire position
  sizePct := .number 1

/-- The close of a long position as the guardian sees it. -/
def closeLong (position : Position) (symbol : String) (price : ℚ)
    (strategyId reason timestamp traceId : String) : Decision :=
  closeDecision symbol "sell" |position.qty| price strategyId reason timestamp traceId

variable {position : Position} {symbol : String} {price : ℚ}
  {strategyId reason timestamp traceId : String}

theorem parse_closeLong {freshStrategyId freshTraceId : String} {parsed : ParsedDecision}
    (accepted : parseDecisionFields freshStrategyId freshTraceId
      (closeLong position symbol price strategyId reason timestamp traceId) = .ok parsed) :
    parsed.symbol = symbol ∧ parsed.side = "sell" ∧ parsed.qty = |position.qty| ∧
      parsed.price = price := by
  obtain ⟨symbolOf, side, qty, priceOf, -⟩ := parseDecisionFields_fields accepted
  refine ⟨?_, ?_, ?_, ?_⟩
  · rw [symbolOf]
    by_cases empty : symbol = ""
    · simp [closeLong, closeDecision, orDefault, empty]
    · simp [closeLong, closeDecision, orDefault, empty]
  · rw [side]
    show lower (orDefault (orElse (some "sell") none) "") = "sell"
    decide
  · exact (Option.some.inj qty).symm
  · exact (Option.some.inj priceOf).symm

/-- An admitted sell flattens exactly when it leaves less than dust. -/
theorem flat_sell_iff {settings : Settings} {prior : Position} {sized qty : ℚ}
    (admitted : admission settings "sell" sized prior = .submit qty)
    (fillPrice : ℚ) (now : String) :
    (prior.fill "sell" qty fillPrice now).side = "flat" ↔ prior.qty - dust < sized := by
  have sell : isSell "sell" = true := by decide
  have down : direction "sell" = -1 := direction_of_isSell sell
  have clamped : qty = min sized prior.qty := (admission_sell sell admitted).2
  have side : (prior.fill "sell" qty fillPrice now).side = "flat" ↔
      |prior.qty + qty * direction "sell"| < dust := by
    rw [Position.fill_side]
    split_ifs with isDust positiveRest
    · exact ⟨fun _ => isDust, fun _ => rfl⟩
    · exact ⟨fun named => absurd named (by decide), fun small => absurd small isDust⟩
    · exact ⟨fun named => absurd named (by decide), fun small => absurd small isDust⟩
  have left : |prior.qty + qty * direction "sell"| = prior.qty - min sized prior.qty := by
    rw [down, clamped, abs_of_nonneg]
    · ring
    · linarith [min_le_right sized prior.qty]
  rw [side, left]
  rcases le_total sized prior.qty with short | enough
  · rw [min_eq_left short]
    constructor
    · intro small
      linarith
    · intro large
      linarith
  · rw [min_eq_right enough]
    have isPositive : (0 : ℚ) < dust := by norm_num [dust]
    constructor
    · intro _
      linarith
    · intro _
      linarith

/-- Quantity of a close once the engine has sized it. -/
theorem sizedQty_close (cash qty price : ℚ) (positive : 0 < price) :
    sizedQty 1 cash qty price = if 0 < cash then cash / price else qty := by
  rw [sizedQty, kellyQty]
  rw [if_neg (by simp [positive]), one_mul]
  by_cases funded : 0 < cash
  · rw [if_pos (div_pos funded positive), if_pos funded]
  · rw [if_neg funded, if_neg]
    exact not_lt.mpr (div_nonpos_of_nonpos_of_nonneg (not_lt.mp funded) positive.le)

/-- A close that the engine submits flattens the position exactly where cash is exhausted or buys
at least the position, up to dust. -/
theorem close_flattens_iff (config : Config) (world : World) (symbol : String) (price : ℚ)
    (strategyId reason timestamp traceId : String) (choices : ℕ → Choice)
    (redis : ∀ n, (choices n).redisFails = false) (positive : 0 < price)
    (open_ : 0 < (world.book.position symbol).qty)
    (admitted : (deliver config world
      { data := closeLong (world.book.position symbol) symbol price strategyId reason timestamp traceId
        choices := choices }).submitted ≠ world.submitted) :
    ((deliver config world
      { data := closeLong (world.book.position symbol) symbol price strategyId reason timestamp traceId
        choices := choices }).book.position symbol).side = "flat" ↔
      world.book.cash ≤ 0 ∨ (world.book.position symbol).qty - dust < world.book.cash / price := by
  obtain ⟨order, qty, slippage, fill⟩ := filled_of_submitted config _ world redis admitted
  obtain ⟨⟨parsed, prepared⟩, admittedQty, ⟨now, book⟩, -⟩ := fill
  obtain ⟨freshStrategyId, freshTraceId, accepted⟩ := prepared.accepted
  obtain ⟨symbolEq, sideEq, qtyEq, priceEq⟩ := parse_closeLong accepted
  obtain ⟨sizePct, found, sized⟩ := prepared.sizedQty_eq
  obtain rfl : (1 : ℚ) = sizePct := Option.some.inj found
  rw [abs_of_pos open_] at qtyEq
  rw [qtyEq, priceEq, sizedQty_close _ _ _ positive] at sized
  rw [prepared.symbol, symbolEq, prepared.side, sideEq, sized] at admittedQty
  rw [book, prepared.symbol, symbolEq, Book.fill_position_self, prepared.side, sideEq,
    flat_sell_iff admittedQty]
  by_cases funded : 0 < world.book.cash
  · rw [if_pos funded]
    simp [funded]
  · rw [if_neg funded]
    have isDust : (0 : ℚ) < dust := by norm_num [dust]
    simp [not_lt.mp funded, isDust]

/-- A world that holds one long position, bought at 60000, and some cash. -/
def holdingWorld (cash qty : ℚ) : World :=
  (freshWorld.write .paperCash cash).write (.paperPosition "BTC/USD")
    { side := "long"
      qty := qty
      entryPrice := 60000
      currentPrice := 60000
      openedAt := some "2026-01-01T00:00:00Z" }

def stopLoss (cash qty : ℚ) : Decision :=
  closeLong ((holdingWorld cash qty).book.position "BTC/USD") "BTC/USD" 57000 "momentum"
    "stop_loss" "2026-01-02T00:00:00Z" "trace"

/-- With cash for more than one bitcoin, the close of one bitcoin flattens. -/
theorem close_flattens_funded :
    ((deliver {} (holdingWorld 60000 1) (calmDelivery (stopLoss 60000 1))).book.position
        "BTC/USD").side = "flat" ↔
      (holdingWorld 60000 1).book.cash ≤ 0 ∨
        ((holdingWorld 60000 1).book.position "BTC/USD").qty - dust <
          (holdingWorld 60000 1).book.cash / 57000 :=
  close_flattens_iff {} (holdingWorld 60000 1) "BTC/USD" 57000 "momentum" "stop_loss"
    "2026-01-02T00:00:00Z" "trace" (fun _ => {}) (fun _ => rfl) (by decide) (by decide +kernel)
    (by decide +kernel)

/-- With 40000 in cash the stop loss of one bitcoin sells two thirds of it, on either path. -/
theorem close_leaves_position :
    ((deliver {} (holdingWorld 40000 1) (calmDelivery (stopLoss 40000 1))).book.position
        "BTC/USD").side = "long" ∧
      ((deliver {} (holdingWorld 40000 1)
        { data := stopLoss 40000 1
          choices := fun _ => { dbAvailable := false } }).book.position "BTC/USD").side =
        "long" := by
  decide +kernel

end RiskGuardian
end TradingControl
