import TradingControl.Dashboard.MergedRows
import TradingControl.Events.EventPipeline

/-!
# Persistence routing

An event goes to the database, to a bucket of the runtime store, or to neither; the route is chosen
before anything is written.  Every stream has its own bucket, or shares the events feed.
-/

namespace TradingControl.Dashboard

open Events Python

/-! ## Routes -/

/-- `PersistRoute`. -/
inductive PersistRoute where
  | db
  | memory
  | skip
deriving DecidableEq

/-- `_DB_STREAMS`. -/
def dbStreams : List String :=
  ["orders", "executions", "agent_logs", "trade_performance", "risk_alerts", "learning_events",
    "agent_grades", "factor_ic_history", "reflection_outputs", "proposals", "notifications"]

/-- `_AGENT_OWNED_DB_STREAMS`. -/
def agentOwnedDbStreams : List String :=
  ["agent_grades", "factor_ic_history", "reflection_outputs", "proposals", "executions"]

/-- `should_route_agent_log_to_memory`. -/
def shouldRouteAgentLogToMemory (event : Dict String Value) : Bool :=
  !((field event "schema_version").isText "v3") ||
    ["source", "trace_id", "level", "message"].any fun name => !(field event name).truthy

/-- `determine_persist_route`. -/
def determinePersistRoute (dbAvailable : Bool) (stream : String) (event : Dict String Value) :
    PersistRoute :=
  if stream ∉ dbStreams then .skip
  else if stream = "agent_logs" && shouldRouteAgentLogToMemory event then .memory
  else if !dbAvailable then .memory
  else if stream ∈ agentOwnedDbStreams then .skip
  else .db

/-! ## Buckets -/

/-- A row with the ids of the events that went into it. -/
abbrev EventRow := SourcedRow String

/-- The lists of the runtime store that events are written to. -/
structure Buckets where
  agentLogs : List EventRow := []
  orders : List EventRow := []
  gradeHistory : List EventRow := []
  vectorMemory : List EventRow := []
  tradeFeed : List EventRow := []
  eventHistory : List EventRow := []

/-- Append a row, stamped with a time, to a list that keeps so many: `add_agent_log`, `add_order`,
`add_vector_memory` and `add_event`. -/
def appendRow (stamp : String) (cap : ℕ) (now : ℚ) (msgId : String) (payload : Dict String Value)
    (rows : List EventRow) : List EventRow :=
  lastItems cap (rows ++ [⟨Events.setDefault payload stamp (.float now), [msgId]⟩])

section

variable (pipeline : EventPipeline)

/-- `build_memory_agent_log_row`. -/
def buildMemoryAgentLogRow (msgId stream : String) (event : Dict String Value) :
    Dict String Value :=
  let payload := EventPipeline.agentPayload event
  let text := pipeline.textOr payload
  let level := pipeline.runtime.str (Value.orElse (Value.get payload "level")
    (Value.orElse (Value.get payload "log_level") (.str "INFO")))
  [("trace_id", .str (text "trace_id" msgId)), ("source", .str (text "source" stream)),
    ("message", .str (text "message" "")), ("log_level", .str level),
    ("schema_version", .str (text "schema_version" "v3")),
    ("timestamp", .str (text "timestamp" ""))]

/-- `write_event_to_memory`: whether the row landed in `event_history`, and the buckets. -/
def writeEventToMemory (now : ℚ) (stream msgId : String) (event : Dict String Value)
    (store : Buckets) : Bool × Buckets :=
  if stream = "agent_logs" then
    let row := buildMemoryAgentLogRow pipeline msgId stream event
    (false, { store with agentLogs := appendRow "timestamp" 500 now msgId row store.agentLogs })
  else if stream = "orders" then
    (false, { store with orders := appendRow "created_at" 500 now msgId event store.orders })
  else if stream = "agent_grades" then
    (false, { store with
      gradeHistory :=
        upsertSourced "timestamp" ["trace_id"] now msgId event store.gradeHistory })
  else if stream = "learning_events" then
    (false, { store with
      vectorMemory := appendRow "created_at" 1000 now msgId event store.vectorMemory })
  else if stream = "trade_performance" then
    (false, { store with
      tradeFeed := upsertSourced "created_at" ["execution_trace_id", "order_id"] now msgId event
        store.tradeFeed })
  else
    let row : Dict String Value :=
      [("id", .str msgId), ("kind", .str stream),
        ("source", .str (pipeline.textOr event "source" stream)),
        ("created_at", .str (pipeline.textOr event "timestamp" "")), ("payload", .dict event)]
    (true, { store with
      eventHistory := appendRow "timestamp" 1000 now msgId row store.eventHistory })

end

end TradingControl.Dashboard
