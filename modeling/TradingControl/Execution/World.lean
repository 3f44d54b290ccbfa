import TradingControl.Effects.Interleaving
import TradingControl.Effects.KeyValue
import TradingControl.Execution.DecisionUtils

/-!
# The world of the execution engine

Redis, the database, the runtime store of the dashboard, the published events and the orders
submitted to the broker, with the operations the engine awaits.  Every operation is one await point:
other deliveries may run in front of it, and it may fail where the environment says so.
-/

namespace TradingControl

open Effects Python

/-! ## Redis -/

/-- `paper:order:{broker_order_id}`: the payload `place_order` returns. -/
structure BrokerOrder where
  brokerOrderId : String
  symbol : String
  side : String
  filledQty : ℚ
  fillPrice : ℚ
  status : String
deriving DecidableEq

/-- Redis keys of the engine and the paper broker. -/
inductive Key where
  | killSwitch
  | tradingPaused
  | tradingPausedReason
  | paperCash
  | paperPosition (symbol : String)
  | paperOrder (brokerOrderId : String)
  | orderLock (symbol : String)
  | orderDedup (idempotencyKey : String)
  | inFlightOrder
  | recentOutcomes
  | macroRegime (benchmark : String)
deriving DecidableEq

/-- Type of the value under a key, after the source has decoded it. -/
abbrev Key.Value : Key → Type
  | .paperCash => ℚ
  | .paperPosition _ => Position
  | .paperOrder _ => BrokerOrder
  | .recentOutcomes => List ℚ
  | .macroRegime _ => Python.Value
  | _ => String

/-! ## Database -/

structure OrderRow where
  id : ℕ
  idempotencyKey : String
  strategyId : String
  symbol : String
  side : String
  qty : ℚ
  price : ℚ
  status : String
  brokerOrderId : Option String
deriving DecidableEq

structure PositionRow where
  id : ℕ
  strategyId : String
  symbol : String
  side : String
  qty : ℚ
  entryPrice : ℚ
  currentPrice : ℚ
  marketValue : ℚ
deriving DecidableEq

/-- Committed tables the engine reads or writes; `nextId` is the sequence behind new rows. -/
structure Database where
  orders : List OrderRow := []
  positions : List PositionRow := []
  auditLog : List (String × ℕ) := []
  agentRunConfidence : String → Option ℚ := fun _ => none
  nextId : ℕ := 0

/-- One write of a transaction. -/
inductive Write where
  | insertOrder (row : OrderRow)
  | updateOrder (id : ℕ) (status brokerOrderId : String) (fillPrice : ℚ)
  | insertPosition (row : PositionRow)
  | updatePosition (id : ℕ) (side : String) (qty : ℚ) (avgCost : Option ℚ)
      (currentPrice marketValue : ℚ)
  | insertAuditLog (eventType : String) (orderId : ℕ)
deriving DecidableEq

/-- A transaction: the writes made in it so far. -/
abbrev Session := List Write

namespace Write

def onOrders : Write → List OrderRow → List OrderRow
  | .insertOrder row, rows => rows ++ [row]
  | .updateOrder id status brokerOrderId fillPrice, rows =>
      rows.map fun row =>
        if row.id = id then
          { row with status := status, brokerOrderId := some brokerOrderId, price := fillPrice }
        else row
  | _, rows => rows

def onPositions : Write → List PositionRow → List PositionRow
  | .insertPosition row, rows => rows ++ [row]
  | .updatePosition id side qty avgCost currentPrice marketValue, rows =>
      rows.map fun row =>
        if row.id = id then
          { row with
            side := side
            qty := qty
            entryPrice := avgCost.getD row.entryPrice
            currentPrice := currentPrice
            marketValue := marketValue }
        else row
  | _, rows => rows

def onAuditLog : Write → List (String × ℕ) → List (String × ℕ)
  | .insertAuditLog eventType orderId, entries => entries ++ [(eventType, orderId)]
  | _, entries => entries

def apply (db : Database) (write : Write) : Database :=
  { db with
    orders := write.onOrders db.orders
    positions := write.onPositions db.positions
    auditLog := write.onAuditLog db.auditLog }

end Write

/-- The tables with the writes of a transaction applied: what it reads, and what it commits. -/
def Database.view (db : Database) (session : Session) : Database := session.foldl Write.apply db

def Database.findOrder (db : Database) (idempotencyKey : String) : Option OrderRow :=
  db.orders.find? fun row => row.idempotencyKey = idempotencyKey

def Database.findPosition (db : Database) (strategyId symbol : String) : Option PositionRow :=
  db.positions.find? fun row => row.strategyId = strategyId && row.symbol = symbol

/-- Statements the engine executes. -/
inductive Statement where
  | selectOrder (idempotencyKey : String)
  /-- `INSERT INTO orders … RETURNING id`; the key is unique. -/
  | insertOrder (idempotencyKey : String)
  /-- `INSERT INTO orders … ON CONFLICT DO NOTHING RETURNING id`. -/
  | insertOrderOnce (idempotencyKey : String)
  | selectPosition (strategyId symbol : String)
  /-- `INSERT INTO positions`, answering with the id the row gets. -/
  | insertPosition
  /-- A write that returns nothing. -/
  | execute (write : Write)
  | selectConfidence (traceId : String)
  | flush
  | commit
  | rollback

abbrev Statement.Answer : Statement → Type
  | .selectOrder _ => Option OrderRow
  | .insertOrder _ => ℕ
  | .insertOrderOnce _ => Option ℕ
  | .selectPosition _ _ => Option PositionRow
  | .insertPosition => ℕ
  | .selectConfidence _ => Option ℚ
  | _ => Unit

/-! ## Fills, events and the runtime store -/

/-- `FillContext`. -/
structure FillContext where
  orderId : String
  strategyId : String
  symbol : String
  side : String
  qty : ℚ
  price : ℚ
  fillPrice : ℚ
  entryPrice : ℚ
  signalConfidence : ℚ
  pnlValue : Option ℚ
  pnlPercent : ℚ
  realizedPnl : ℚ
  isRoundTripClose : Bool
  idempotencyKey : String
  traceId : String
  vwapPlan : Option (List ℚ)
  filledAt : String
  modelUsed : String
  primaryEdge : String
  decisionCostUsd : ℚ
deriving DecidableEq

/-- Events the engine publishes, one constructor for each stream. -/
inductive StreamEvent where
  | execution (ctx : FillContext)
  | tradePerformance (ctx : FillContext)
  | tradeCompleted (ctx : FillContext)
  | tradeLifecycle (ctx : FillContext)
  | sellRejected (symbol side : String) (qty : ℚ) (orderId idempotencyKey traceId : String)
deriving DecidableEq

/-- The part of `InMemoryStore` that records fills. -/
structure RuntimeStore where
  orders : List (FillContext × String) := []
  closedTrades : List FillContext := []
  rejectedSells : List (String × String × String) := []
  positions : String → Option Position := fun _ => none

/-- An order handed to the broker. -/
structure Submission where
  symbol : String
  side : String
  qty : ℚ
  price : ℚ
deriving DecidableEq

/-! ## Operations -/

/-- Exceptions of the engine and of the services it calls. -/
inductive Failure where
  | killSwitchActive
  | lockHeld (symbol : String)
  | redisError
  | databaseError
  | integrityError
  | valueError
deriving DecidableEq

inductive EngineOp where
  | redis (command : KeyValue.Command Key.Value)
  | database (session : Session) (statement : Statement)
  | isDbAvailable
  | isSymbolOpen (symbol : String)
  | isWithinNoTradeWindow
  | uniform
  | uuid4
  | utcNow
  /-- The `trades_submitted` counter around `place_order`. -/
  | tradesSubmitted (order : Submission)
  | publish (event : StreamEvent)
  | runtimeStore (change : RuntimeStore → RuntimeStore)

/-- `random.uniform(0.0001, 0.0005)`. -/
abbrev Slippage := { fraction : ℚ // 1 / 10000 ≤ fraction ∧ fraction ≤ 5 / 10000 }

theorem least_slippage : (1 / 10000 : ℚ) ≤ 1 / 10000 ∧ (1 / 10000 : ℚ) ≤ 5 / 10000 := by norm_num

abbrev EngineOp.Answer : EngineOp → Type
  | .redis command => command.Answer
  | .database _ statement => statement.Answer
  | .isDbAvailable => Bool
  | .isSymbolOpen _ => Bool
  | .isWithinNoTradeWindow => Bool
  | .uniform => Slippage
  | .uuid4 => String
  | .utcNow => String
  | .tradesSubmitted _ => Unit
  | .publish _ => Unit
  | .runtimeStore _ => Unit

abbrev engineSignature : Signature where
  Op := EngineOp
  Answer := EngineOp.Answer

/-- Programs of the engine. -/
abbrev Engine (α : Type) := Program engineSignature Failure α

/-- What the environment decides about one operation. -/
structure Choice where
  redisFails : Bool := false
  dbFails : Bool := false
  dbAvailable : Bool := true
  symbolOpen : Bool := true
  noTradeWindow : Bool := false
  slippage : Slippage := ⟨1 / 10000, least_slippage⟩
  uuid : String := "uuid"
  utcMinute : String := "197001010000"

/-- Redis, database, runtime store, published events and submitted orders. -/
structure World where
  redis : KeyValue.Store Key.Value
  db : Database := {}
  runtime : RuntimeStore := {}
  published : List StreamEvent := []
  submitted : List Submission := []

namespace World

/-- World after `SET`. -/
def write (world : World) (key : Key) (value : key.Value) : World :=
  { world with redis := Function.update world.redis key (some value) }

/-- World after `SET NX`. -/
def writeOnce (world : World) (key : Key) (value : key.Value) : World :=
  { world with redis := (KeyValue.Command.setnx key value).apply world.redis }

/-- World after `DEL`. -/
def erase (world : World) (key : Key) : World :=
  { world with redis := Function.update world.redis key none }

/-- World in which one more order has been handed to the broker. -/
def submit (world : World) (order : Submission) : World :=
  { world with submitted := world.submitted ++ [order] }

/-- World after `COMMIT`. -/
def commit (world : World) (session : Session) : World :=
  { world with db := world.db.view session }

section

variable (world : World) {key other : Key}

@[simp] theorem write_redis_self (value : key.Value) :
    (world.write key value).redis key = some value := Function.update_self ..

@[simp] theorem write_redis_other (different : other ≠ key) (value : key.Value) :
    (world.write key value).redis other = world.redis other := Function.update_of_ne different ..

@[simp] theorem erase_redis_self : (world.erase key).redis key = none := Function.update_self ..

@[simp] theorem erase_redis_other (different : other ≠ key) :
    (world.erase key).redis other = world.redis other := Function.update_of_ne different ..

@[simp] theorem writeOnce_redis_other (different : other ≠ key) (value : key.Value) :
    (world.writeOnce key value).redis other = world.redis other :=
  KeyValue.Command.apply_other (ν := Key.Value) (.setnx key value) world.redis different

theorem writeOnce_of_none (value : key.Value) (free : world.redis key = none) :
    world.writeOnce key value = world.write key value := by
  simp only [writeOnce, write, KeyValue.Command.apply_setnx_of_none value free]

theorem writeOnce_of_some {value held : key.Value} (taken : world.redis key = some held) :
    world.writeOnce key value = world := by
  simp only [writeOnce, KeyValue.Command.apply_setnx_of_some value taken]

theorem writeOnce_writeOnce (value : key.Value) :
    (world.writeOnce key value).writeOnce key value = world.writeOnce key value := by
  cases held : world.redis key with
  | none =>
      rw [writeOnce_of_none _ _ held]
      exact writeOnce_of_some _ (write_redis_self world value)
  | some taken => rw [writeOnce_of_some _ held, writeOnce_of_some _ held]

theorem writeOnce_write (value next : key.Value) :
    (world.writeOnce key value).write key next = world.write key next := by
  cases held : world.redis key with
  | none => simp [writeOnce_of_none _ _ held, write]
  | some taken => rw [writeOnce_of_some _ held]

end

/-- Whatever a write leaves alone: the database, the runtime store, events and submissions. -/
@[simp] theorem write_db (world : World) (key : Key) (value : key.Value) :
    (world.write key value).db = world.db := rfl

@[simp] theorem write_submitted (world : World) (key : Key) (value : key.Value) :
    (world.write key value).submitted = world.submitted := rfl

@[simp] theorem writeOnce_db (world : World) (key : Key) (value : key.Value) :
    (world.writeOnce key value).db = world.db := rfl

@[simp] theorem writeOnce_submitted (world : World) (key : Key) (value : key.Value) :
    (world.writeOnce key value).submitted = world.submitted := rfl

@[simp] theorem erase_db (world : World) (key : Key) : (world.erase key).db = world.db := rfl

@[simp] theorem erase_submitted (world : World) (key : Key) :
    (world.erase key).submitted = world.submitted := rfl

@[simp] theorem commit_redis (world : World) (session : Session) :
    (world.commit session).redis = world.redis := rfl

@[simp] theorem commit_db (world : World) (session : Session) :
    (world.commit session).db = world.db.view session := rfl

@[simp] theorem commit_submitted (world : World) (session : Session) :
    (world.commit session).submitted = world.submitted := rfl

@[simp] theorem submit_redis (world : World) (order : Submission) :
    (world.submit order).redis = world.redis := rfl

@[simp] theorem submit_db (world : World) (order : Submission) :
    (world.submit order).db = world.db := rfl

@[simp] theorem submit_submitted (world : World) (order : Submission) :
    (world.submit order).submitted = world.submitted ++ [order] := rfl

end World

/-- Effect of one statement of a transaction when the database answers. -/
def Statement.run (session : Session) (db : Database) :
    (statement : Statement) → Except Failure statement.Answer × Database
  | .selectOrder idempotencyKey => (.ok ((db.view session).findOrder idempotencyKey), db)
  | .insertOrder idempotencyKey =>
      match (db.view session).findOrder idempotencyKey with
      | some _ => (.error .integrityError, db)
      | none => (.ok db.nextId, { db with nextId := db.nextId + 1 })
  | .insertOrderOnce idempotencyKey =>
      match (db.view session).findOrder idempotencyKey with
      | some _ => (.ok none, db)
      | none => (.ok (some db.nextId), { db with nextId := db.nextId + 1 })
  | .selectPosition strategyId symbol =>
      (.ok ((db.view session).findPosition strategyId symbol), db)
  | .insertPosition => (.ok db.nextId, { db with nextId := db.nextId + 1 })
  | .execute _ => (.ok (), db)
  | .selectConfidence traceId => (.ok (db.agentRunConfidence traceId), db)
  | .flush => (.ok (), db)
  | .commit => (.ok (), db.view session)
  | .rollback => (.ok (), db)

/-- Answer one operation. -/
def engineHandler : Handler engineSignature Failure Choice World
  | .redis command, choice, world =>
      if choice.redisFails then (.error .redisError, world)
      else (.ok (command.answer world.redis), { world with redis := command.apply world.redis })
  | .database session statement, choice, world =>
      if choice.dbFails then (.error .databaseError, world)
      else
        ((statement.run session world.db).1,
          { world with db := (statement.run session world.db).2 })
  | .isDbAvailable, choice, world => (.ok choice.dbAvailable, world)
  | .isSymbolOpen _, choice, world => (.ok choice.symbolOpen, world)
  | .isWithinNoTradeWindow, choice, world => (.ok choice.noTradeWindow, world)
  | .uniform, choice, world => (.ok choice.slippage, world)
  | .uuid4, choice, world => (.ok choice.uuid, world)
  | .utcNow, choice, world => (.ok choice.utcMinute, world)
  | .tradesSubmitted order, _, world =>
      (.ok (), { world with submitted := world.submitted ++ [order] })
  | .publish event, choice, world =>
      -- `EventBus.publish` swallows a Redis failure
      if choice.redisFails then (.ok (), world)
      else (.ok (), { world with published := world.published ++ [event] })
  | .runtimeStore change, _, world => (.ok (), { world with runtime := change world.runtime })

end TradingControl
