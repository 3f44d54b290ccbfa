import TradingControl.Execution.PaperBroker
import TradingControl.Python.Operators

/-!
# The runtime store of memory mode

Orders, mirrored positions and the equity curve, and the views that show realized PnL.  Every view
parses the order rows itself.
-/

namespace TradingControl.Dashboard

open Python

/-- A position row as `mirror_broker_position` writes it. -/
structure MirroredPosition where
  symbol : String
  side : String
  qty : ℚ
  avgCost : ℚ
  lastPrice : ℚ
  strategyId : Option String

/-- A point of the equity curve. -/
structure EquityPoint where
  timestamp : String
  value : Number
  realizedPnl : Number
  unrealizedPnl : Number
  totalPnl : Number

/-- The part of `InMemoryStore` that PnL is shown from. -/
structure InMemoryStore where
  orders : List (Dict String Value) := []
  positions : Dict String MirroredPosition := []
  equityCurve : List EquityPoint := []

/-! ## Parsing -/

/-- A float where the conversion raises neither `TypeError` nor `ValueError`. -/
def safeFloat (interpreter : Interpreter) (value : Value) : Except Raised (Option Number) :=
  match interpreter.float value with
  | .ok number => .ok (some number)
  | .error .typeError | .error .valueError => .ok none
  | .error error => .error error

/-- `_safe_float(order.get("pnl")) or 0.0`. -/
def pnlOrZero (interpreter : Interpreter) (order : Dict String Value) : Except Raised Number := do
  return (← safeFloat interpreter ((order.lookup "pnl").getD .none)).getD (.finite 0)

/-- `realized_pnl_of`. -/
def realizedPnlOf (interpreter : Interpreter) (trade : Dict String Value) :
    Except Raised (Option Number) :=
  match (trade.lookup "pnl").getD .none with
  | .none => .ok none
  | .str text => if text = "" then .ok none else safeFloat interpreter (.str text)
  | raw => safeFloat interpreter raw

/-- `sum(numbers)`. -/
def sum (numbers : List Number) : Number := numbers.foldl Number.add (.finite 0)

/-- How many numbers are positive. -/
def winning (numbers : List Number) : ℕ := numbers.countP (Number.lt (.finite 0))

/-- How many numbers are negative. -/
def losing (numbers : List Number) : ℕ := numbers.countP fun number => number.lt (.finite 0)

/-! ## Realized PnL -/

/-- `win_rate_from_counts`. -/
def winRateFromCounts (winning losing : ℕ) : ℚ :=
  if winning + losing = 0 then 0 else winning / (winning + losing : ℕ)

/-- `ClosedTradeStats`. -/
structure ClosedTradeStats where
  realizedPnl : Number
  winning : ℕ
  losing : ℕ
  closed : ℕ
  winRate : ℚ
  best : Number
  worst : Number

/-- `max(numbers, default=0.0)` and `min(numbers, default=0.0)`. -/
def extreme (choose : Number → Number → Number) : List Number → Number
  | [] => .finite 0
  | first :: rest => rest.foldl choose first

/-- `closed_trade_stats`. -/
def closedTradeStats (interpreter : Interpreter) (trades : List (Dict String Value)) :
    Except Raised ClosedTradeStats := do
  let realized := (← trades.mapM (realizedPnlOf interpreter)).reduceOption
  return {
    realizedPnl := (sum realized).round 8
    winning := winning realized
    losing := losing realized
    closed := winning realized + losing realized
    winRate := winRateFromCounts (winning realized) (losing realized)
    best := (extreme Number.max realized).round 8
    worst := (extreme Number.min realized).round 8 }

/-! ## Positions -/

namespace MirroredPosition

/-- `_position_unrealized_pnl`. -/
def unrealizedPnl (row : MirroredPosition) : Option ℚ :=
  if |row.qty| ≤ 0 then none
  else if row.side = "short" then some (roundHalfEven 8 ((row.avgCost - row.lastPrice) * |row.qty|))
  else some (roundHalfEven 8 ((row.lastPrice - row.avgCost) * |row.qty|))

end MirroredPosition

/-- `d.pop(key, None)`. -/
def pop {α : Type} (key : String) (entries : Dict String α) : Dict String α :=
  entries.filter fun entry => entry.1 ≠ key

namespace InMemoryStore

variable (interpreter : Interpreter) (store : InMemoryStore)

/-- `open_positions`, as far as PnL is read from them. -/
def openPositions : List MirroredPosition :=
  (store.positions.map Prod.snd).filter fun row => 0 < |row.qty|

/-! ## Views -/

/-- Summary of `paired_pnl_payload`. -/
structure PairedPnl where
  realizedPnl : Number
  unrealizedPnl : Number
  totalPnl : Number
  closedTrades : ℕ
  winningTrades : ℕ
  winRatePercent : ℚ
  openPositions : ℕ

/-- `paired_pnl_payload`: its trades are the last hundred orders. -/
def pairedPnlPayload : Except Raised PairedPnl := do
  let pnls ← (lastItems 100 store.orders).mapM (pnlOrZero interpreter)
  let realized := sum pnls
  let unrealized := sum ((store.openPositions.filterMap (·.unrealizedPnl)).map .finite)
  return {
    realizedPnl := realized.round 8
    unrealizedPnl := unrealized.round 8
    totalPnl := (realized.add unrealized).round 8
    closedTrades := winning pnls + losing pnls
    winningTrades := winning pnls
    winRatePercent := roundHalfEven 2 (winRateFromCounts (winning pnls) (losing pnls) * 100)
    openPositions := store.openPositions.length }

/-- Fields of `dashboard_fallback_snapshot` that depend on orders. -/
structure Snapshot where
  orders : List (Dict String Value)
  dailyPnl : Number
  dailyChangePct : Number
  equityCurve : List EquityPoint

/-- `dashboard_fallback_snapshot`. -/
def dashboardFallbackSnapshot : Except Raised Snapshot := do
  let stats ← closedTradeStats interpreter store.orders
  let change ← stats.realizedPnl.div (.finite defaultPaperCash)
  return {
    orders := (lastItems 50 store.orders).reverse
    dailyPnl := stats.realizedPnl.round 2
    dailyChangePct := (change.mul (.finite 100)).round 4
    equityCurve := lastItems 200 store.equityCurve }

/-! ## Recording -/

/-- `add_order`. -/
def addOrder (order : Dict String Value) : InMemoryStore :=
  { store with orders := lastItems 500 (store.orders ++ [order]) }

/-- `mirror_broker_position`: a flat position removes the row. -/
def mirrorBrokerPosition (symbol : String) (position : Position) (strategyId : Option String) :
    InMemoryStore :=
  if |position.qty| ≤ dust then { store with positions := pop symbol store.positions }
  else
    { store with
      positions := Dict.set symbol
        { symbol := symbol
          side := lower position.side
          qty := |position.qty|
          avgCost := position.entryPrice
          lastPrice :=
            if position.currentPrice = 0 then position.entryPrice else position.currentPrice
          strategyId := strategyId }
        store.positions }

/-- `_append_equity_snapshot`. -/
def appendEquitySnapshot (filledAt : String) : Except Raised InMemoryStore := do
  let paired ← store.pairedPnlPayload interpreter
  let point : EquityPoint :=
    { timestamp := filledAt
      value := paired.totalPnl
      realizedPnl := paired.realizedPnl
      unrealizedPnl := paired.unrealizedPnl
      totalPnl := paired.totalPnl }
  return { store with equityCurve := lastItems 1000 (store.equityCurve ++ [point]) }

end InMemoryStore

/-- A fill to record, with what the broker holds of the symbol after it. -/
structure RecordedFill where
  ctx : FillContext
  brokerOrderId : String
  createdAt : ℚ
  brokerPosition : Position

/-- The order row of a fill; an opening fill has no PnL. -/
def RecordedFill.orderRow (fill : RecordedFill) : Dict String Value :=
  let ctx := fill.ctx
  [("order_id", .str ctx.orderId), ("strategy_id", .str ctx.strategyId),
    ("symbol", .str ctx.symbol), ("side", .str ctx.side), ("qty", .float ctx.qty),
    ("quantity", .float ctx.qty), ("price", .float ctx.fillPrice),
    ("filled_price", .float ctx.fillPrice), ("status", .str "filled"),
    ("broker_order_id", .str fill.brokerOrderId),
    ("pnl", match ctx.pnlValue with | some pnl => .float pnl | none => .none),
    ("session_id", .str ctx.strategyId), ("pnl_percent", .float ctx.pnlPercent),
    ("filled_at", .str ctx.filledAt), ("trace_id", .str ctx.traceId),
    ("created_at", .float fill.createdAt)]

namespace InMemoryStore

variable (interpreter : Interpreter)

/-- `_record_fill_to_store`. -/
def recordFill (store : InMemoryStore) (fill : RecordedFill) : Except Raised InMemoryStore :=
  ((store.addOrder fill.orderRow).mirrorBrokerPosition fill.ctx.symbol fill.brokerPosition
    (some fill.ctx.strategyId)).appendEquitySnapshot interpreter fill.ctx.filledAt

def recordFills (fills : List RecordedFill) : Except Raised InMemoryStore :=
  fills.foldlM (recordFill interpreter) {}

end InMemoryStore

end TradingControl.Dashboard
