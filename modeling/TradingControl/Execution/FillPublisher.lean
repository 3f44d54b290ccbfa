import TradingControl.Execution.PaperBroker

/-!
# Order writer

Statements on orders, positions and the audit log.  Each function takes the transaction it writes in
and returns it with its own write added.
-/

namespace TradingControl

open Effects Python

/-! ## Rows of the positions table -/

/-- Signed quantity of a fill, as the upsert reads the side of an order. -/
def signedFill (side : String) (qty : ℚ) : ℚ := if isBuy side then qty else -qty

namespace PositionRow

/-- Signed quantity of a row: positive for `long` and `buy`, negative for any other side. -/
def signedQty (row : PositionRow) : ℚ := if isBuy (lower row.side) then row.qty else -row.qty

def opened (round8 : ℚ → ℚ) (id : ℕ) (strategyId symbol side : String) (qty fillPrice : ℚ)
    (avgCost : Option ℚ) : PositionRow where
  id := id
  strategyId := strategyId
  symbol := symbol
  side := if 0 ≤ signedFill side qty then "long" else "short"
  qty := |signedFill side qty|
  entryPrice := avgCost.getD fillPrice
  currentPrice := fillPrice
  marketValue := round8 (|signedFill side qty| * fillPrice)

/-- Side of a row that holds a signed quantity. -/
def sideOf (signed : ℚ) : String :=
  if |signed| < dust then "flat" else if 0 < signed then "long" else "short"

def updated (round8 : ℚ → ℚ) (row : PositionRow) (side : String) (qty fillPrice : ℚ)
    (avgCost : Option ℚ) : Write :=
  let newQty := row.signedQty + signedFill side qty
  .updatePosition row.id (sideOf newQty) |newQty| avgCost fillPrice (round8 (|newQty| * fillPrice))

end PositionRow

namespace OrderWriter

open Engine

/-- `insert_pending_order`. -/
def insertPendingOrder (session : Session) (strategyId symbol side : String) (qty price : ℚ)
    (idempotencyKey status : String) : Engine (ℕ × Session) := do
  let id ← database session (.insertOrder idempotencyKey)
  return (id, session ++
    [.insertOrder
      { id := id
        idempotencyKey := idempotencyKey
        strategyId := strategyId
        symbol := symbol
        side := side
        qty := qty
        price := price
        status := status
        brokerOrderId := none }])

/-- `insert_rejected_order_once`: the id, and whether the row is new. -/
def insertRejectedOrderOnce (session : Session) (idempotencyKey strategyId symbol side : String)
    (qty price : ℚ) : Engine (ℕ × Bool × Session) := do
  match ← database session (.insertOrderOnce idempotencyKey) with
  | some id =>
      return (id, true, session ++
        [.insertOrder
          { id := id
            idempotencyKey := idempotencyKey
            strategyId := strategyId
            symbol := symbol
            side := side
            qty := qty
            price := price
            status := "rejected"
            brokerOrderId := none }])
  | none =>
      match ← database session (.selectOrder idempotencyKey) with
      | some row => return (row.id, false, session)
      | none => .raise .databaseError

/-- `update_order_fill`. -/
def updateOrderFill (session : Session) (orderId : ℕ) (status brokerOrderId : String)
    (fillPrice : ℚ) : Engine Session := do
  let write := Write.updateOrder orderId status brokerOrderId fillPrice
  let _ ← database session (.execute write)
  return session ++ [write]

/-- `upsert_position_db`. -/
def upsertPositionDb (round8 : ℚ → ℚ) (session : Session) (strategyId symbol side : String)
    (qty fillPrice : ℚ) (avgCost : Option ℚ) : Engine Session := do
  match ← database session (.selectPosition strategyId symbol) with
  | none =>
      let id ← database session .insertPosition
      return session ++
        [.insertPosition (.opened round8 id strategyId symbol side qty fillPrice avgCost)]
  | some row =>
      let write := row.updated round8 side qty fillPrice avgCost
      let _ ← database session (.execute write)
      return session ++ [write]

/-- `insert_audit_log`. -/
def insertAuditLog (session : Session) (eventType : String) (orderId : ℕ) : Engine Session := do
  let write := Write.insertAuditLog eventType orderId
  let _ ← database session (.execute write)
  return session ++ [write]

end OrderWriter

end TradingControl

/-!
# Recording a fill

Events of a completed fill, and its mirror in the runtime store.
-/

namespace TradingControl

open Effects Python Engine

/-- `publish_fill_events`: one snapshot on every downstream stream. -/
def publishFillEvents (ctx : FillContext) : Engine Unit := do
  publish (.execution ctx)
  publish (.tradePerformance ctx)
  if ctx.isRoundTripClose then publish (.tradeCompleted ctx)
  publish (.tradeLifecycle ctx)

namespace RuntimeStore

/-- Append to a list that keeps its last 500 entries. -/
def pushRecent {α : Type} (items : List α) (item : α) : List α :=
  (items ++ [item]).drop ((items ++ [item]).length - 500)

/-- `add_order`. -/
def addOrder (store : RuntimeStore) (ctx : FillContext) (brokerOrderId : String) : RuntimeStore :=
  { store with orders := pushRecent store.orders (ctx, brokerOrderId) }

/-- `add_closed_trade`. -/
def addClosedTrade (store : RuntimeStore) (ctx : FillContext) : RuntimeStore :=
  { store with closedTrades := pushRecent store.closedTrades ctx }

/-- `reject_sell_no_position`. -/
def rejectSellNoPosition (store : RuntimeStore) (symbol traceId eventId : String) : RuntimeStore :=
  { store with rejectedSells := pushRecent store.rejectedSells (symbol, traceId, eventId) }

/-- `mirror_broker_position`: a flat position removes the row. -/
def mirrorBrokerPosition (store : RuntimeStore) (symbol : String) (position : Position) :
    RuntimeStore :=
  { store with
    positions :=
      Function.update store.positions symbol
        (if |position.qty| ≤ dust then none
        else
          some
            { side := lower position.side
              qty := |position.qty|
              entryPrice := position.entryPrice
              currentPrice :=
                if position.currentPrice = 0 then position.entryPrice else position.currentPrice
              openedAt := none }) }

end RuntimeStore

/-- `_record_fill_to_store`. -/
def recordFillToStore (ctx : FillContext) (brokerOrderId : String) : Engine Unit := do
  runtimeStore fun store => store.addOrder ctx brokerOrderId
  if ctx.isRoundTripClose then runtimeStore fun store => store.addClosedTrade ctx
  let position ← PaperBroker.getPosition ctx.symbol
  runtimeStore fun store => store.mirrorBrokerPosition ctx.symbol position

end TradingControl
