import TradingControl.Execution.Gates

/-!
# Execution engine

The two execution paths and the handler that leads from one into the other.  The database path
deduplicates on the orders table, the in-memory path on a Redis key; both serialise on the symbol's
lock.
-/

namespace TradingControl

open Effects Python Engine

/-! ## Pieces of both paths -/

/-- `_build_vwap_plan`. -/
def buildVwapPlan (config : Config) (qty : ℚ) : Option (List ℚ) :=
  if qty ≤ largeOrderThreshold then
    none
  else
    let sliceQty := config.round8 (qty / 3)
    some [sliceQty, sliceQty, config.round8 (qty - sliceQty * 2)]

/-- `FillContext` of a fill, with the PnL against the position before it. -/
def fillContext (config : Config) (data : Decision) (order : Order) (prior : Position)
    (orderId : String) (qty fillPrice confidence : ℚ) (filledAt : String) (decisionCostUsd : ℚ) :
    FillContext :=
  let realizedPnl := computeRealizedPnl config.round8 prior order.side qty fillPrice
  let entryPrice := prior.entryOr fillPrice
  let isClose := isRoundTripClose prior order.side
  { orderId := orderId
    strategyId := order.strategyId
    symbol := order.symbol
    side := order.side
    qty := qty
    price := order.price
    fillPrice := fillPrice
    entryPrice := entryPrice
    signalConfidence := confidence
    pnlValue := if isClose then some realizedPnl else none
    pnlPercent := computePnlPercent prior qty entryPrice realizedPnl
    realizedPnl := realizedPnl
    isRoundTripClose := isClose
    idempotencyKey := order.idempotencyKey
    traceId := order.traceId
    vwapPlan := buildVwapPlan config qty
    filledAt := filledAt
    modelUsed := orDefault data.modelUsed ""
    primaryEdge := orDefault data.primaryEdge ""
    decisionCostUsd := decisionCostUsd }

/-- Push a realized PnL for the cooling-off gate; a failure is ignored. -/
def recordOutcome (realizedPnl : ℚ) : Engine Unit := do
  if realizedPnl ≠ 0 then
    let _ ← (do
      let _ ← redisModify .recentOutcomes fun outcomes => realizedPnl :: outcomes.getD []
      redisModify .recentOutcomes fun outcomes =>
        (outcomes.getD []).take recentOutcomesMaxlen : Engine (List ℚ)).attempt

/-- Clear the in-flight flag; a failure is ignored. -/
def clearInFlight : Engine Unit := do
  let _ ← (redisDelete .inFlightOrder).attempt

/-- Record a fill in the runtime store and publish its events. -/
def recordFill (config : Config) (data : Decision) (order : Order) (prior : Position)
    (orderId : String) (qty : ℚ) (receipt : BrokerOrder) : Engine FillContext := do
  let filledAt ← utcNow
  let decisionCostUsd ← requireFloat data.decisionCostUsd.toFloatOrZero
  let ctx := fillContext config data order prior orderId qty receipt.fillPrice
    order.signalConfidence filledAt decisionCostUsd
  recordFillToStore ctx receipt.brokerOrderId
  publishFillEvents ctx
  return ctx

/-! ## In-memory path -/

/-- Body of the in-memory path under the symbol's lock. -/
def executeInMemory (config : Config) (data : Decision) (order : Order) (orderId : String) :
    Engine Unit := do
  let prior ← PaperBroker.getPosition order.symbol
  match admission config.settings order.side order.qty prior with
  | .rejectSell =>
      runtimeStore fun store => store.rejectSellNoPosition order.symbol order.traceId orderId
      publish
        (.sellRejected order.symbol order.side order.qty orderId order.idempotencyKey order.traceId)
  | .rejectBuy => return
  | .submit qty =>
      redisSet .inFlightOrder "1"
      let receipt ← PaperBroker.placeOrder config.round8 order.symbol order.side qty order.price
      let ctx ← recordFill config data order prior orderId qty receipt
      recordOutcome ctx.realizedPnl
      clearInFlight

/-- In-memory path from the idempotency key on. -/
def submitInMemory (config : Config) (data : Decision) (order : Order) : Engine Unit := do
  if ← redisSetnx (.orderDedup order.idempotencyKey) "1" then
    let orderId ← uuid4
    let lockValue ← uuid4
    if ← redisSetnx (.orderLock order.symbol) lockValue then
      (executeInMemory config data order orderId).tryFinally (redisDelete (.orderLock order.symbol))
    else
      .raise (.lockHeld order.symbol)

/-- `_process_in_memory`. -/
def processInMemory (config : Config) (data : Decision) : Engine Unit := do
  match ← prepareOrder config data with
  | none => return
  | some order => submitInMemory config data order

/-! ## Database path -/

/-- `_handle_db_failure`; `filled` is the admitted quantity and the broker's answer, if it was
called. -/
def handleDbFailure (config : Config) (data : Decision) (order : Order) (prior : Position)
    (filled : Option (ℚ × BrokerOrder)) : Engine Unit := do
  match filled with
  | none => processInMemory config data
  | some (qty, receipt) =>
      -- already filled: record it without submitting again
      let orderId ← uuid4
      let _ ← recordFill config data order prior orderId qty receipt

/-- What the database path has done when it reaches the broker's answer. -/
inductive Placement where
  /-- Rejected; nothing is left to do. -/
  | rejected
  | filled (orderId : ℕ) (qty : ℚ) (receipt : BrokerOrder) (session : Session)

/-- Body of the database path up to the broker's answer. -/
def placeWithDb (config : Config) (order : Order) (prior : Position) : Engine Placement := do
  match admission config.settings order.side order.qty prior with
  | .rejectSell =>
      let (orderId, created, session) ← OrderWriter.insertRejectedOrderOnce [] order.idempotencyKey
        order.strategyId order.symbol order.side order.qty order.price
      database session .commit
      if created then
        publish (.sellRejected order.symbol order.side order.qty (toString orderId)
          order.idempotencyKey order.traceId)
      return .rejected
  | .rejectBuy => return .rejected
  | .submit qty =>
      let (orderId, session) ← OrderWriter.insertPendingOrder [] order.strategyId order.symbol
        order.side qty order.price order.idempotencyKey "pending"
      database session .flush
      redisSet .inFlightOrder "1"
      let receipt ← PaperBroker.placeOrder config.round8 order.symbol order.side qty order.price
      return .filled orderId qty receipt session

/-- Body of the database path after the broker's answer. -/
def commitFill (config : Config) (order : Order) (prior : Position) (orderId : ℕ) (qty : ℚ)
    (receipt : BrokerOrder) (session : Session) : Engine Unit := do
  let session ← OrderWriter.updateOrderFill session orderId receipt.status receipt.brokerOrderId
    receipt.fillPrice
  let position ← PaperBroker.getPosition order.symbol
  let session ← OrderWriter.upsertPositionDb config.round8 session order.strategyId order.symbol
    order.side qty receipt.fillPrice (some (position.entryOr receipt.fillPrice))
  let session ← OrderWriter.insertAuditLog session "order_placed" orderId
  database session .commit
  recordOutcome (computeRealizedPnl config.round8 prior order.side qty receipt.fillPrice)
  clearInFlight

/-- How the `try` block of the database path ended. -/
inductive DbOutcome where
  | rejected
  | committed (orderId : ℕ) (qty : ℚ) (receipt : BrokerOrder)
  /-- An exception was rolled back; the broker's answer, if it was called. -/
  | failed (filled : Option (ℚ × BrokerOrder))

/-- `try … except` of the database path. -/
def executeWithDb (config : Config) (order : Order) (prior : Position) : Engine DbOutcome := do
  match ← (placeWithDb config order prior).attempt with
  | .error _ =>
      database [] .rollback
      return .failed none
  | .ok .rejected => return .rejected
  | .ok (.filled orderId qty receipt session) =>
      match ← (commitFill config order prior orderId qty receipt session).attempt with
      | .error _ =>
          database [] .rollback
          return .failed (some (qty, receipt))
      | .ok () => return .committed orderId qty receipt

/-- Confidence that `agent_runs` holds for the decision, else the signal's own. -/
def recordedConfidence (order : Order) : Engine ℚ := do
  match ← (database [] (.selectConfidence order.traceId)).attempt with
  | .ok (some confidence) => return confidence
  | _ => return order.signalConfidence

/-- Events of a committed fill. -/
def publishCommitted (config : Config) (data : Decision) (order : Order) (prior : Position)
    (orderId : ℕ) (qty : ℚ) (receipt : BrokerOrder) : Engine Unit := do
  let confidence ← recordedConfidence order
  let filledAt ← utcNow
  let decisionCostUsd ← requireFloat data.decisionCostUsd.toFloatOrZero
  publishFillEvents (fillContext config data order prior (toString orderId) qty receipt.fillPrice
    confidence filledAt decisionCostUsd)

/-- Database path from the idempotency key on. -/
def submitWithDb (config : Config) (data : Decision) (order : Order) : Engine Unit := do
  let lockValue ← uuid4
  match ← database [] (.selectOrder order.idempotencyKey) with
  | some _ => return
  | none =>
    if ← redisSetnx (.orderLock order.symbol) lockValue then
      -- outside the `try`: an exception here leaves the lock behind
      let prior ← PaperBroker.getPosition order.symbol
      match ← (executeWithDb config order prior).tryFinally
          (redisDelete (.orderLock order.symbol)) with
      | .rejected => return
      | .failed filled => handleDbFailure config data order prior filled
      | .committed orderId qty receipt =>
          publishCommitted config data order prior orderId qty receipt
    else
      .raise (.lockHeld order.symbol)

/-- `_process_with_db`. -/
def processWithDb (config : Config) (data : Decision) : Engine Unit := do
  match ← prepareOrder config data with
  | none => return
  | some order => submitWithDb config data order

/-! ## Entry point -/

/-- `process`. -/
def process (config : Config) (data : Decision) : Engine Unit := do
  if (← redisGet .killSwitch) = some "1" then
    .raise .killSwitchActive
  else if (← redisGet .tradingPaused) = some "1" then
    let _ ← redisGet .tradingPausedReason
    return
  else if ← isDbAvailable then
    processWithDb config data
  else
    processInMemory config data

/-- A decision as the engine receives it, with what the environment decides meanwhile. -/
structure Delivery where
  data : Decision
  choices : ℕ → Choice

def deliver (config : Config) (world : World) (delivery : Delivery) : World :=
  ((process config delivery.data).exec engineHandler delivery.choices world).2

/-- World after deliveries processed one after another. -/
def deliverAll (config : Config) (world : World) (deliveries : List Delivery) : World :=
  deliveries.foldl (deliver config) world

end TradingControl
