import Mathlib.Data.List.Nodup
import TradingControl.Effects.OnceLog
import TradingControl.Effects.Transaction
import TradingControl.Python.Dict
import TradingControl.Python.Runtime

/-!
# Safe writer

`SafeWriter` writes one message in one transaction: it checks the payload, inserts the rows, and
claims the message last, by a row of `processed_events`.
-/

namespace TradingControl.Writer

open Effects Python

/-! ## Tables -/

/-- Columns of a row, or the values that a statement gives to some of them. -/
abbrev Row := Dict String Value

inductive Table where
  | orders
  | events
  | positions
  | agentLogs
  | systemMetrics
  | tradePerformance
  | vectorMemory
  | agentGrades
deriving DecidableEq

/-- `processed_events`: messages with their streams, whose primary key is the message. -/
structure ProcessedEvents where
  rows : List (String × String) := []
  distinct : (rows.map Prod.fst).Nodup := by exact List.nodup_nil

namespace ProcessedEvents

def ids (processed : ProcessedEvents) : List String := processed.rows.map Prod.fst

/-- Insert a row, unless there is one with the key. -/
def insert (msgId stream : String) (processed : ProcessedEvents) : Option ProcessedEvents :=
  if fresh : msgId ∈ processed.ids then none
  else some {
    rows := processed.rows ++ [(msgId, stream)]
    distinct := by
      rw [List.map_append, List.map_singleton]
      refine List.nodup_append.mpr ⟨processed.distinct, List.nodup_singleton _, ?_⟩
      rintro first isFirst second isSecond rfl
      obtain rfl : first = msgId := List.mem_singleton.mp isSecond
      exact fresh isFirst }

theorem ids_insert {msgId stream : String} {processed after : ProcessedEvents}
    (inserted : processed.insert msgId stream = some after) :
    after.ids = processed.ids ++ [msgId] := by
  rw [insert] at inserted
  split at inserted
  · cases inserted
  · obtain rfl := Option.some.inj inserted
    simp [ids]

end ProcessedEvents

structure Database where
  rows : Table → List Row := fun _ => []
  processed : ProcessedEvents := {}

namespace Database

def add (table : Table) (row : Row) (database : Database) : Database :=
  { database with rows := Function.update database.rows table (database.rows table ++ [row]) }

def change (table : Table) (selected : Row → Bool) (values : Row) (database : Database) :
    Database :=
  { database with
    rows := Function.update database.rows table ((database.rows table).map fun row =>
      if selected row then values.foldl (fun row item => Dict.set item.1 item.2 row) row
      else row) }

end Database

/-! ## Statements -/

/-- `row.column = value`. -/
def columnIs (column : String) (value : Value) (row : Row) : Bool :=
  match row.lookup column, value with
  | some (.str held), .str text => held = text
  | some (.int held), .int number => held = number
  | _, _ => false

inductive Statement where
  /-- Insert a row, and answer it. -/
  | insert (table : Table) (values : Row)
  /-- Insert a metric, unless there is one with the id; the number of rows. -/
  | insertMetric (id : ℕ) (values : Row)
  /-- The number of orders with the id. -/
  | updateOrder (orderId : Value) (values : Row)
  /-- Insert a position, or change the one of its strategy and symbol. -/
  | upsertPosition (values changes : Row)
  /-- Claim a message, unless it is claimed, and answer it if so. -/
  | claim (msgId stream : String)
  /-- Claim a message, which fails if it is claimed. -/
  | addClaim (msgId stream : String)
  | selectOrder (idempotencyKey : Value)

abbrev Statement.Answer : Statement → Type
  | .insert _ _ => Row
  | .insertMetric _ _ => ℕ
  | .updateOrder _ _ => ℕ
  | .upsertPosition _ _ => Unit
  | .claim _ _ => Option String
  | .addClaim _ _ => Unit
  | .selectOrder _ => Option Row

inductive DbError where
  | integrityError
  | otherError
deriving DecidableEq

inductive WriteError where
  | valueError (text : String)
  | keyError (field : String)
  | database (error : DbError)
  /-- A statement in a transaction in which one has failed. -/
  | aborted
  | resourceClosed
  /-- The commit raised. -/
  | commitFailed (error : DbError)
deriving DecidableEq

/-- What the database makes of one statement or commit. -/
structure DatabaseChoice where
  /-- It fails: on a constraint, or with its connection. -/
  error : Option DbError := none
  /-- A commit that fails has been applied all the same. -/
  applied : Bool := false
  /-- Columns that are filled in by default: ids, times and the like. -/
  generated : Row := []

/-- A statement on the copy of a transaction. -/
def Statement.run (choice : DatabaseChoice) (database : Database) : (query : Statement) →
    Except WriteError (query.Answer × Database)
  | .insert table values =>
      .ok (values ++ choice.generated, database.add table (values ++ choice.generated))
  | .insertMetric id values =>
      if (database.rows .systemMetrics).any (columnIs "id" (.int id)) then .ok (0, database)
      else
        .ok (1, database.add .systemMetrics (("id", .int id) :: values ++ choice.generated))
  | .updateOrder orderId values =>
      .ok (((database.rows .orders).filter (columnIs "id" orderId)).length,
        database.change .orders (columnIs "id" orderId) (values ++ choice.generated))
  | .upsertPosition values changes =>
      let same := fun row : Row => ["strategy_id", "symbol"].all fun column =>
        columnIs column ((values.lookup column).getD .none) row
      if (database.rows .positions).any same then
        .ok ((), database.change .positions same (changes ++ choice.generated))
      else .ok ((), database.add .positions (values ++ choice.generated))
  | .claim msgId stream =>
      match database.processed.insert msgId stream with
      | none => .ok (none, database)
      | some processed => .ok (some msgId, { database with processed })
  | .addClaim msgId stream =>
      match database.processed.insert msgId stream with
      | none => .error (.database .integrityError)
      | some processed => .ok ((), { database with processed })
  | .selectOrder key =>
      .ok ((database.rows .orders).find? (columnIs "idempotency_key" key), database)

/-- PostgreSQL, as far as the writer relies on it. -/
def postgres : Dialect Statement Statement.Answer WriteError DatabaseChoice Database where
  run query choice database :=
    match choice.error with
    | some error => .error (.database error)
    | none => query.run choice database
  aborted := .aborted
  commitFailure choice := choice.error.map fun error => (.commitFailed error, choice.applied)

/-- Programs of the writer. -/
abbrev Writing (α : Type) := Program (transactionSignature Statement.Answer) WriteError α

/-- A statement as a program. -/
def perform (query : Statement) : Writing query.Answer := statement query

/-! ## Checks -/

/-- A decoded message. -/
abbrev Payload := Dict String Value

/-- `data.get(field)`; on a field that has been checked, `data[field]`. -/
def get (data : Payload) (field : String) : Value := (data.lookup field).getD .none

/-- `data.get(field, default)`. -/
def getOr (data : Payload) (field : String) (default : Value) : Value :=
  (data.lookup field).getD default

/-- `data[field]`. -/
def item (data : Payload) (field : String) : Except WriteError Value :=
  match data.lookup field with
  | some value => .ok value
  | none => .error (.keyError field)

/-- Raise unless a condition holds. -/
def require (holds : Bool) (text : String) : Except WriteError Unit :=
  if holds then .ok () else .error (.valueError text)

/-- `DB_SCHEMA_VERSION`. -/
def dbSchemaVersion : String := "v3"

/-- The interpreter, as far as the writer depends on it. -/
structure SafeWriter where
  runtime : Runtime
  /-- `datetime.fromisoformat`; a time is held as a text. -/
  fromIsoFormat : String → Option String
  /-- `c.isalnum()`. -/
  isAlnum : Char → Bool
  /-- `int(text, 16)`. -/
  parseHex : String → Option ℕ

namespace SafeWriter

variable (writer : SafeWriter)

/-- `_validate_schema_v3`. -/
def validateSchemaV3 (data : Payload) (modelName : String) : Except WriteError Unit := do
  match data.lookup "schema_version" with
  | none => .error (.valueError (modelName ++ ": Missing required field 'schema_version'"))
  | some version =>
      require (version.isText dbSchemaVersion) (modelName ++ ": Invalid schema version '" ++
        writer.runtime.str version ++ "'. Expected '" ++ dbSchemaVersion ++ "'")
  let sourced := ["Order", "Event", "VectorMemory", "AgentLog", "SystemMetrics", "TradePerformance"]
  require (!sourced.contains modelName || (get data "source").truthy)
    (modelName ++ ": Source field is required and cannot be empty")
  require (modelName = "Notification" || (get data "trace_id").truthy)
    (modelName ++ ": trace_id field is required for v3 events")

/-- `_log_write_operation`, as far as it raises. -/
def logWriteOperation (entityId : String) : Except WriteError Unit :=
  require (entityId ≠ "") "entity_id is required for audit logging"

/-- The field is there and is not `None`. -/
def isGiven (data : Payload) (field : String) : Bool :=
  match data.lookup field with
  | none | some .none => false
  | some _ => true

/-- `validate_payload`. -/
def validatePayload (data : Payload) (requiredFields : List String) (operation : String := "") :
    Except WriteError Unit := do
  match requiredFields.find? fun field => !isGiven data field with
  | some field => .error (.valueError ("Missing required field: " ++ field))
  | none => pure ()
  let financial := ["write_order", "write_execution", "write_trade_performance"]
  require (!financial.contains operation || (get data "idempotency_key").truthy)
    ("idempotency_key is required for " ++ operation)

/-- `safe_parse_dt`. -/
def safeParseDt (value : Value) : Option String :=
  match value with
  | .str text =>
      if text = "" then none
      else writer.fromIsoFormat (String.ofList (text.toList.flatMap fun c =>
        if c = 'Z' then "+00:00".toList else [c]))
  | _ => none

/-- `safe_parse_dt(value) or now`, as a column. -/
def timeOr (value : Value) (now : String) : Value := .str ((writer.safeParseDt value).getD now)

/-- A time that may be missing, as a column. -/
def timeOrNone (value : Value) : Value :=
  match writer.safeParseDt value with
  | some time => .str time
  | none => .none

end SafeWriter

/-! ## Claims -/

def claimInline (msgId stream : String) : Writing Bool := do
  let claimed ← perform (.claim msgId stream)
  return claimed.isSome

/-- `_claim_message`. -/
def claimMessage (msgId stream : String) : Writing Bool := do
  let claimed ← (perform (.claim msgId stream)).tryCatch fun
    | .database .integrityError => .ret none
    | error => .raise error
  return claimed.isSome

def requireClaimed (msgId : String) (claimed : Bool) : Except WriteError Unit :=
  require claimed ("Message " ++ msgId ++ " was already processed in this transaction")

/-! ## Orders and executions -/

def eventValues (eventType entityType : String) (entityId : Value) (data : Payload) : Row :=
  [("event_type", .str eventType), ("entity_type", .str entityType), ("entity_id", entityId),
    ("data", .dict data)]

def orderValues (data : Payload) : Row :=
  [("strategy_id", get data "strategy_id"), ("external_order_id", get data "external_order_id"),
    ("idempotency_key", get data "idempotency_key"), ("symbol", get data "symbol"),
    ("side", get data "side"), ("order_type", get data "order_type"),
    ("quantity", get data "quantity"), ("price", get data "price"),
    ("exchange", get data "exchange"), ("order_metadata", getOr data "metadata" (.dict []))]

namespace SafeWriter

variable (writer : SafeWriter)

/-- The checks of `write_order`. -/
def checkOrder (msgId : String) (data : Payload) : Except WriteError Unit := do
  writer.validateSchemaV3 data "Order"
  validatePayload data ["strategy_id", "symbol", "side", "order_type", "quantity"] "write_order"
  require (get data "idempotency_key").truthy "idempotency_key is required for order deduplication"
  logWriteOperation msgId

/-- What follows a `session.flush()` that raised.  An `IntegrityError` has aborted the transaction,
so that the lookup raises; `scalar` would have closed its result before `scalar_one`. -/
def existingOrder (data : Payload) : WriteError → Writing Row
  | .database .integrityError => do
      match ← perform (.selectOrder (get data "idempotency_key")) with
      | none =>
          .raise (.valueError ("IntegrityError but no existing order found " ++
            "for idempotency_key=" ++ writer.runtime.str (get data "idempotency_key")))
      | some _ => .raise .resourceClosed
  | error => .raise error

/-- `session.add(order)` and `session.flush()`. -/
def addOrder (data : Payload) : Writing Row :=
  (perform (.insert .orders (orderValues data))).tryCatch (writer.existingOrder data)

/-- `write_order`. -/
def writeOrder (msgId stream : String) (data : Payload) : Writing Bool :=
  if msgId = "" then .raise (.valueError "msg_id is required for write_order")
  else transaction do
    .ofExcept (writer.checkOrder msgId data)
    let order ← writer.addOrder data
    let _ ← perform (.insert .events (eventValues "order.created" "order" (get order "id") data ++
      [("idempotency_key", .str msgId)]))
    perform (.addClaim msgId stream)
    return true

/-- The checks of `write_execution`. -/
def checkExecution (msgId : String) (data : Payload) : Except WriteError Unit := do
  writer.validateSchemaV3 data "Event"
  validatePayload data ["strategy_id", "symbol", "order_id"]
  logWriteOperation msgId

/-- What an execution writes to its order. -/
def filledValues (data : Payload) : Row :=
  [("filled_quantity", get data "filled_quantity"), ("filled_price", get data "filled_price"),
    ("status", .str "filled"), ("commission", getOr data "commission" (.int 0))]

/-- What an execution writes to a position that is there. -/
def positionChanges (data : Payload) : Row :=
  [("quantity", get data "new_quantity"), ("avg_cost", get data "new_avg_cost"),
    ("market_value", get data "market_value"),
    ("unrealized_pnl", getOr data "unrealized_pnl" (.int 0)),
    ("last_price", get data "filled_price")]

/-- What an execution writes to a position that is not. -/
def positionValues (data : Payload) : Row :=
  [("strategy_id", get data "strategy_id"), ("symbol", get data "symbol")] ++
    positionChanges data ++ [("metadata", getOr data "metadata" (.dict []))]

/-- `write_execution`. -/
def writeExecution (msgId stream : String) (data : Payload) : Writing Bool :=
  if msgId = "" then .raise (.valueError "msg_id is required for write_execution")
  else transaction do
    .ofExcept (writer.checkExecution msgId data)
    let _ ← perform
      (.insert .events (eventValues "order.filled" "order" (get data "order_id") data))
    let rowcount ← perform (.updateOrder (get data "order_id") (filledValues data))
    .ofExcept (require (rowcount ≠ 0) ("Order " ++ writer.runtime.str (get data "order_id") ++
      " not found for execution"))
    perform (.upsertPosition (positionValues data) (positionChanges data))
    let claimed ← claimInline msgId stream
    .ofExcept (requireClaimed msgId claimed)
    return true

end SafeWriter

/-! ## Writers of one row -/

/-- A writer that inserts one row. -/
structure RowWriter where
  name : String
  table : Table
  /-- The checks, and the row that is inserted. -/
  values : SafeWriter → (now msgId : String) → Payload → Except WriteError Row
  claim : (msgId stream : String) → Writing Bool
  /-- What is read of the payload once the message is claimed. -/
  logged : Payload → Except WriteError Unit := fun _ => .ok ()

def RowWriter.write (kind : RowWriter) (writer : SafeWriter) (now msgId stream : String)
    (data : Payload) : Writing Bool :=
  if msgId = "" then .raise (.valueError ("msg_id is required for " ++ kind.name))
  else transaction do
    let values ← .ofExcept (kind.values writer now msgId data)
    let _ ← perform (.insert kind.table values)
    let claimed ← kind.claim msgId stream
    .ofExcept (requireClaimed msgId claimed)
    .ofExcept (kind.logged data)
    return true

/-- `write_agent_log`. -/
def writeAgentLog : RowWriter where
  name := "write_agent_log"
  table := .agentLogs
  values writer now msgId data := do
    writer.validateSchemaV3 data "AgentLog"
    SafeWriter.validatePayload data ["level", "message"]
    SafeWriter.logWriteOperation msgId
    return [("agent_run_id", get data "agent_id"),
      ("log_level", getOr data "log_level" (.str "INFO")),
      ("message", get data "message"), ("step_name", get data "step_name"),
      ("step_data", getOr data "step_data" (.dict [])),
      ("trace_id", getOr data "trace_id" (.str msgId)),
      ("schema_version", getOr data "schema_version" (.str "v2")),
      ("source", getOr data "source" (.str "unknown")),
      ("created_at", writer.timeOr (get data "timestamp") now)]
  claim := claimInline
  -- the log line reads `data["agent_id"]`, which is optional
  logged data := (item data "agent_id").map fun _ => ()

/-- `write_trade_performance`. -/
def writeTradePerformance : RowWriter where
  name := "write_trade_performance"
  table := .tradePerformance
  values writer now msgId data := do
    writer.validateSchemaV3 data "TradePerformance"
    SafeWriter.validatePayload data ["strategy_id", "symbol", "trade_id", "entry_price", "quantity"]
    SafeWriter.logWriteOperation msgId
    let entryTime ← item data "entry_time"
    return [("strategy_id", get data "strategy_id"), ("agent_id", get data "agent_id"),
      ("symbol", get data "symbol"), ("trade_id", get data "trade_id"),
      ("entry_time", writer.timeOr entryTime now),
      ("exit_time", writer.timeOrNone (get data "exit_time")),
      ("entry_price", get data "entry_price"), ("exit_price", get data "exit_price"),
      ("quantity", get data "quantity"), ("pnl", get data "pnl"),
      ("pnl_percent", get data "pnl_percent"),
      ("holding_period_minutes", get data "holding_period_minutes"),
      ("max_drawdown", get data "max_drawdown"), ("max_runup", get data "max_runup"),
      ("sharpe_ratio", get data "sharpe_ratio"),
      ("trade_type", getOr data "trade_type" (.str "long")),
      ("exit_reason", get data "exit_reason"), ("regime", get data "regime"),
      ("hour_utc", get data "hour_utc"),
      ("performance_metrics", getOr data "performance_metrics" (.dict []))]
  claim := claimMessage

/-- `isinstance(x, (int, float))`. -/
def isNumber : Value → Bool
  | .bool _ | .int _ | .float _ | .nonFinite _ => true
  | _ => false

/-- `write_vector_memory`. -/
def writeVectorMemory : RowWriter where
  name := "write_vector_memory"
  table := .vectorMemory
  values writer _ msgId data := do
    writer.validateSchemaV3 data "VectorMemory"
    SafeWriter.validatePayload data ["content", "content_type", "embedding"]
    match get data "embedding" with
    | .list embedding =>
        require (embedding.length = 1536) "embedding must be 1536-length list"
        require (embedding.all isNumber) "embedding must be numeric"
    | _ => .error (.valueError "embedding must be 1536-length list")
    SafeWriter.logWriteOperation msgId
    return [("content", get data "content"), ("content_type", get data "content_type"),
      ("embedding", get data "embedding"), ("vector_metadata", getOr data "metadata" (.dict [])),
      ("agent_id", get data "agent_id"), ("strategy_id", get data "strategy_id"),
      ("schema_version", getOr data "schema_version" (.str "v2")),
      ("source", getOr data "source" (.str "unknown"))]
  claim := claimMessage

/-- `write_risk_alert`, which checks nothing. -/
def writeRiskAlert : RowWriter where
  name := "write_risk_alert"
  table := .events
  values _ _ _ data := .ok [("event_type", .str "risk.alert"),
    ("entity_type", getOr data "entity_type" (.str "system")),
    ("entity_id", get data "entity_id"), ("data", .dict data)]
  claim := claimMessage

/-- `write_agent_grade`. -/
def writeAgentGrade : RowWriter where
  name := "write_agent_grade"
  table := .agentGrades
  values writer _ msgId data := do
    writer.validateSchemaV3 data "AgentGrades"
    SafeWriter.validatePayload data ["agent_id", "agent_run_id", "grade_type", "score"]
    SafeWriter.logWriteOperation msgId
    return [("agent_id", get data "agent_id"), ("agent_run_id", get data "agent_run_id"),
      ("grade_type", get data "grade_type"), ("score", get data "score"),
      ("metrics", getOr data "metrics" (.dict [])), ("feedback", get data "feedback"),
      ("schema_version", getOr data "schema_version" (.str dbSchemaVersion)),
      ("source", getOr data "source" (.str "unknown"))]
  claim := claimMessage

/-- `write_reflection_output`. -/
def writeReflectionOutput : RowWriter where
  name := "write_reflection_output"
  table := .vectorMemory
  values writer _ msgId data := do
    writer.validateSchemaV3 data "ReflectionOutput"
    SafeWriter.validatePayload data ["agent_id", "reflection_type", "insights"]
    SafeWriter.logWriteOperation msgId
    let schemaVersion := getOr data "schema_version" (.str dbSchemaVersion)
    let source := getOr data "source" (.str "reflection_agent")
    return [("content", getOr data "insights" (.str "")), ("content_type", .str "reflection"),
      ("embedding", getOr data "embedding" (.list (List.replicate 1536 (.float 0)))),
      ("vector_metadata", .dict [("reflection_type", get data "reflection_type"),
        ("agent_id", get data "agent_id"), ("trace_id", get data "trace_id"),
        ("schema_version", schemaVersion), ("source", source)]),
      ("agent_id", get data "agent_id"), ("strategy_id", get data "strategy_id"),
      ("schema_version", schemaVersion), ("source", source)]
  claim := claimMessage

/-- A writer that checks a message and inserts it as an event. -/
def checkedEvent (name modelName : String) (requiredFields : List String)
    (eventType entityType : String) (entityId : String → Payload → Value) : RowWriter where
  name := name
  table := .events
  values writer _ msgId data := do
    writer.validateSchemaV3 data modelName
    SafeWriter.validatePayload data requiredFields
    SafeWriter.logWriteOperation msgId
    return eventValues eventType entityType (entityId msgId data) data
  claim := claimMessage

/-- `write_ic_weight`. -/
def writeIcWeight : RowWriter :=
  checkedEvent "write_ic_weight" "ICWeight" ["factor_name", "ic_value", "weight"]
    "ic.weight_updated" "factor" fun _ data => get data "factor_id"

/-- `write_strategy_proposal`. -/
def writeStrategyProposal : RowWriter :=
  checkedEvent "write_strategy_proposal" "StrategyProposal" ["proposal_type", "content"]
    "strategy.proposed" "strategy" fun _ data => get data "strategy_id"

/-- `write_notification`. -/
def writeNotification : RowWriter :=
  checkedEvent "write_notification" "Notification" ["notification_type", "message"]
    "notification.created" "notification" fun msgId data =>
      if (get data "notification_id").truthy then get data "notification_id"
      else if (get data "trace_id").truthy then get data "trace_id"
      else .str msgId

/-! ## System metrics -/

/-- The arguments of `write_system_metric`. -/
structure Metric where
  metricName : Value
  metricValue : Value
  metricUnit : Value
  tags : Value
  schemaVersion : String
  source : String
  timestamp : String

namespace SafeWriter

variable (writer : SafeWriter)

/-- The format of a message id that `write_system_metric` takes. -/
def isMetricId (msgId : String) : Bool :=
  let rest := msgId.toList.filter fun c => c ≠ '-' ∧ c ≠ '_'
  !rest.isEmpty && rest.all writer.isAlnum

/-- `UUID(msg_id)`.  A message id that has been checked has no prefix and no braces. -/
def uuid (msgId : String) : Except WriteError ℕ :=
  let hex := String.ofList (msgId.toList.filter (· ≠ '-'))
  if hex.length ≠ 32 then .error (.valueError "badly formed hexadecimal UUID string")
  else
    match writer.parseHex hex with
    | some number => .ok number
    | none => .error (.valueError ("invalid literal for int() with base 16: '" ++ hex ++ "'"))

/-- The checks of `write_system_metric`, and the id of the row. -/
def checkMetric (msgId : String) (metric : Metric) : Except WriteError ℕ := do
  require (msgId ≠ "") "msg_id is required for idempotent writes"
  require metric.metricName.truthy "metric_name is required"
  writer.uuid msgId

def metricValues (metric : Metric) : Row :=
  [("metric_name", metric.metricName),
    ("metric_value", match metric.metricValue with
      | .none => .float 0
      | value => value),
    ("metric_unit", metric.metricUnit), ("tags", metric.tags),
    ("schema_version", .str metric.schemaVersion), ("source", .str metric.source),
    ("timestamp", .str metric.timestamp)]

/-- `write_system_metric`.  A duplicate is logged, and claimed as well. -/
def writeSystemMetric (msgId : String) (metric : Metric) : Writing Bool :=
  if !writer.isMetricId msgId then .raise (.valueError ("Invalid msg_id format: " ++ msgId))
  else transaction do
    let id ← .ofExcept (writer.checkMetric msgId metric)
    let _ ← perform (.insertMetric id (metricValues metric))
    let claimed ← claimMessage msgId "system_metrics"
    .ofExcept (requireClaimed msgId claimed)
    return true

end SafeWriter

/-! ## Calls -/

/-- A writer of one row. -/
inductive RowKind where
  | agentLog
  | tradePerformance
  | vectorMemory
  | riskAlert
  | agentGrade
  | icWeight
  | reflectionOutput
  | strategyProposal
  | notification

def RowKind.writer : RowKind → RowWriter
  | .agentLog => writeAgentLog
  | .tradePerformance => writeTradePerformance
  | .vectorMemory => writeVectorMemory
  | .riskAlert => writeRiskAlert
  | .agentGrade => writeAgentGrade
  | .icWeight => writeIcWeight
  | .reflectionOutput => writeReflectionOutput
  | .strategyProposal => writeStrategyProposal
  | .notification => writeNotification

/-- A call of a `write_*` method. -/
inductive Write where
  | order (msgId stream : String) (data : Payload)
  | execution (msgId stream : String) (data : Payload)
  | row (kind : RowKind) (msgId stream : String) (data : Payload)
  | systemMetric (msgId : String) (metric : Metric)

namespace Write

def msgId : Write → String
  | .order msgId _ _ | .execution msgId _ _ | .row _ msgId _ _ | .systemMetric msgId _ => msgId

def stream : Write → String
  | .order _ stream _ | .execution _ stream _ | .row _ _ stream _ => stream
  | .systemMetric _ _ => "system_metrics"

/-- The method that is called, at a time. -/
def program (writer : SafeWriter) (now : String) : Write → Writing Bool
  | .order msgId stream data => writer.writeOrder msgId stream data
  | .execution msgId stream data => writer.writeExecution msgId stream data
  | .row kind msgId stream data => kind.writer.write writer now msgId stream data
  | .systemMetric msgId metric => writer.writeSystemMetric msgId metric

end Write

/-- A call with the time it is made at and what the database makes of its statements. -/
structure Call where
  write : Write
  now : String
  choices : Nat → DatabaseChoice

/-- `SafeWriter` on the tables of the database. -/
def SafeWriter.service (writer : SafeWriter) :
    Service Call (Except WriteError Bool) Database where
  serve call database :=
    let result := (call.write.program writer call.now).exec postgres.handler call.choices
      { durable := database }
    (result.1, result.2.durable)
  during call database :=
    ((call.write.program writer call.now).visits postgres.handler call.choices
      { durable := database }).map Transacted.durable

end TradingControl.Writer
