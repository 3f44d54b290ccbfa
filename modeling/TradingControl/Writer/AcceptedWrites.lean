import TradingControl.Dashboard.PersistenceRouting
import TradingControl.Effects.Committed
import TradingControl.Writer.ExactlyOnce

/-!
# Writes that are accepted

A writer checks some fields of a message and reads others.  While the database is up, what the
checks have let through is stored unless a row repeats a unique key, a field is read that need not
be there, or a statement names a column that its table has not.
-/

namespace TradingControl.Writer

open Effects Python

/-! ## A database that is up -/

/-- Attributes of the mapped class of a table. -/
def Table.attributes : Table → List String
  | .orders => ["id", "strategy_id", "external_order_id", "idempotency_key", "symbol", "side",
      "order_type", "quantity", "price", "filled_quantity", "filled_price", "status", "exchange",
      "commission", "order_metadata", "schema_version", "source", "created_at", "updated_at"]
  | .events => ["id", "event_type", "entity_type", "entity_id", "idempotency_key", "processed",
      "data", "schema_version", "source", "created_at"]
  | .positions => ["id", "strategy_id", "symbol", "quantity", "avg_cost", "market_value",
      "unrealized_pnl", "last_price", "position_metadata", "schema_version", "source",
      "created_at", "updated_at"]
  | .agentLogs => ["id", "agent_run_id", "log_level", "message", "step_name", "step_data",
      "trace_id", "schema_version", "source", "timestamp", "created_at"]
  | .systemMetrics => ["id", "metric_name", "metric_value", "metric_unit", "tags",
      "schema_version", "source", "timestamp"]
  | .tradePerformance => ["id", "strategy_id", "agent_id", "trade_id", "symbol", "entry_time",
      "exit_time", "entry_price", "exit_price", "quantity", "pnl", "pnl_percent",
      "holding_period_minutes", "max_drawdown", "max_runup", "sharpe_ratio", "trade_type",
      "exit_reason", "regime", "hour_utc", "performance_metrics", "schema_version", "source",
      "created_at"]
  | .vectorMemory => ["id", "agent_id", "strategy_id", "content", "content_type", "embedding",
      "vector_metadata", "outcome", "schema_version", "source", "created_at"]
  | .agentGrades => ["id", "agent_id", "agent_run_id", "grade_type", "score", "metrics",
      "feedback", "schema_version", "source", "created_at"]

/-- Unique columns of a table, but for its id. -/
def Table.uniqueKeys : Table → List (List String)
  | .orders => [["external_order_id"], ["idempotency_key"]]
  | .events => [["idempotency_key"]]
  | .positions => [["strategy_id", "symbol"]]
  | .tradePerformance => [["strategy_id", "trade_id"]]
  | _ => []

/-- Every column is an attribute of the mapped class; SQLAlchemy refuses the others. -/
def Table.maps (table : Table) (values : Row) : Bool :=
  values.all fun item => table.attributes.contains item.1

/-- A stored row has the values of a unique key; a missing value repeats nothing. -/
def Database.repeats (database : Database) (table : Table) (values : Row) : Bool :=
  table.uniqueKeys.any fun key => (database.rows table).any fun row =>
    key.all fun column => columnIs column (get values column) row

/-- Why a statement fails while the database is up and takes the values, if it does. -/
def Statement.refusal (database : Database) : Statement → Option DbError
  | .insert table values =>
      if !table.maps values then some .otherError
      else if database.repeats table values then some .integrityError
      else none
  | .insertMetric _ values => if Table.systemMetrics.maps values then none else some .otherError
  | .updateOrder _ values => if Table.orders.maps values then none else some .otherError
  | .upsertPosition values changes =>
      if Table.positions.maps values && Table.positions.maps changes then none
      else some .otherError
  | _ => none

/-- PostgreSQL while it is up: a statement fails for a reason, and a commit does not. -/
def healthy : Dialect Statement Statement.Answer WriteError DatabaseChoice Database where
  run query choice database :=
    postgres.run query { choice with error := query.refusal database } database
  aborted := .aborted
  commitFailure _ := none

theorem healthy_refines (op : TransactionOp Statement) (choice : DatabaseChoice)
    (world : Transacted Database) :
    ∃ other, healthy.handler op choice world = postgres.handler op other world := by
  cases op with
  | begin => exact ⟨choice, rfl⟩
  | rollback => exact ⟨choice, rfl⟩
  | commit => exact ⟨{ choice with error := none }, rfl⟩
  | statement query =>
      obtain ⟨durable, working⟩ := world
      cases working with
      | none => exact ⟨choice, rfl⟩
      | some tables => exact ⟨{ choice with error := query.refusal tables }, rfl⟩

/-! ## Checks -/

/-- Schema, fields and audit, which most writers of one row check. -/
def SafeWriter.checkRow (writer : SafeWriter) (modelName : String) (requiredFields : List String)
    (msgId : String) (data : Payload) : Except WriteError Unit := do
  writer.validateSchemaV3 data modelName
  SafeWriter.validatePayload data requiredFields
  SafeWriter.logWriteOperation msgId

/-- `embedding must be 1536-length list`, of numbers. -/
def checkEmbedding (data : Payload) : Except WriteError Unit :=
  match get data "embedding" with
  | .list embedding => do
      require (embedding.length = 1536) "embedding must be 1536-length list"
      require (embedding.all isNumber) "embedding must be numeric"
  | _ => .error (.valueError "embedding must be 1536-length list")

def RowKind.check (writer : SafeWriter) (msgId : String) (data : Payload) :
    RowKind → Except WriteError Unit
  | .agentLog => writer.checkRow "AgentLog" ["level", "message"] msgId data
  | .tradePerformance => writer.checkRow "TradePerformance"
      ["strategy_id", "symbol", "trade_id", "entry_price", "quantity"] msgId data
  | .vectorMemory => do
      writer.validateSchemaV3 data "VectorMemory"
      SafeWriter.validatePayload data ["content", "content_type", "embedding"]
      checkEmbedding data
      SafeWriter.logWriteOperation msgId
  | .riskAlert => .ok ()
  | .agentGrade => writer.checkRow "AgentGrades"
      ["agent_id", "agent_run_id", "grade_type", "score"] msgId data
  | .icWeight => writer.checkRow "ICWeight" ["factor_name", "ic_value", "weight"] msgId data
  | .reflectionOutput => writer.checkRow "ReflectionOutput"
      ["agent_id", "reflection_type", "insights"] msgId data
  | .strategyProposal => writer.checkRow "StrategyProposal" ["proposal_type", "content"] msgId data
  | .notification => writer.checkRow "Notification" ["notification_type", "message"] msgId data

/-- The validation of a call accepts it. -/
def Write.Accepted (writer : SafeWriter) : Write → Prop
  | .order msgId _ data => msgId ≠ "" ∧ writer.checkOrder msgId data = .ok ()
  | .execution msgId _ data => msgId ≠ "" ∧ writer.checkExecution msgId data = .ok ()
  | .row kind msgId _ data => msgId ≠ "" ∧ kind.check writer msgId data = .ok ()
  | .systemMetric msgId metric =>
      writer.isMetricId msgId = true ∧ msgId ≠ "" ∧ metric.metricName.truthy = true

/-- The values fit their columns, where the writer itself converts one. -/
def Write.Fits (writer : SafeWriter) : Write → Prop
  | .systemMetric msgId _ => ∃ id, writer.uuid msgId = .ok id
  | _ => True

/-! ## Writes that go through -/

/-- The optional field that a writer of one row reads as if it were there is there, and no unique
key is repeated. -/
def RowKind.Spared (database : Database) (data : Payload) : RowKind → Prop
  | .agentLog => (data.lookup "agent_id").isSome
  | .tradePerformance =>
      (data.lookup "entry_time").isSome ∧ database.repeats .tradePerformance data = false
  | _ => True

/-- Nothing stands in the way of a call that is accepted. -/
def Write.Spared (database : Database) : Write → Prop
  | .order msgId _ data => database.repeats .orders data = false ∧
      database.repeats .events [("idempotency_key", .str msgId)] = false
  | .execution _ _ _ => False
  | .row kind _ _ data => kind.Spared database data
  | .systemMetric _ _ => True

/-- The call returns `True` while the database is up, and its rows and its claim are there. -/
def Call.Commits (writer : SafeWriter) (call : Call) (database : Database) : Prop :=
  let result := (call.write.program writer call.now).exec healthy.handler call.choices
    { durable := database }
  result.1 = .ok true ∧ Effect AddsNewMetric writer call database result.2.durable

/-! ## Statements -/

section

variable {writer : SafeWriter} {database : Database} {msgId stream now : String} {data : Payload}

/-- An insert goes through unless it repeats a unique key. -/
theorem healthy_insert {table : Table} {values : Row} (maps : table.maps values = true)
    (choice : DatabaseChoice) :
    healthy.run (.insert table values) choice database =
      if database.repeats table values then .error (.database .integrityError)
      else .ok (values ++ choice.generated, database.add table (values ++ choice.generated)) := by
  simp only [healthy, postgres, Statement.refusal, maps, Bool.not_true, Bool.false_eq_true,
    if_false]
  by_cases repeats : database.repeats table values = true
  · simp only [repeats, if_true]
  · simp only [repeats, Bool.false_eq_true, if_false, Statement.run]

/-- A message that is not claimed can be. -/
theorem insert_of_unclaimed {processed : ProcessedEvents} (unclaimed : msgId ∉ processed.ids)
    (stream : String) : ∃ after, processed.insert msgId stream = some after := by
  rw [ProcessedEvents.insert, dif_neg unclaimed]
  exact ⟨_, rfl⟩

theorem healthy_claim (unclaimed : msgId ∉ database.processed.ids) (stream : String)
    (choice : DatabaseChoice) :
    ∃ after, healthy.run (.claim msgId stream) choice database = .ok (some msgId, after) := by
  obtain ⟨processed, inserted⟩ := insert_of_unclaimed unclaimed stream
  refine ⟨{ database with processed }, ?_⟩
  simp only [healthy, postgres, Statement.refusal, Statement.run, inserted]

theorem healthy_addClaim (unclaimed : msgId ∉ database.processed.ids) (stream : String)
    (choice : DatabaseChoice) :
    ∃ after, healthy.run (.addClaim msgId stream) choice database = .ok ((), after) := by
  obtain ⟨processed, inserted⟩ := insert_of_unclaimed unclaimed stream
  refine ⟨{ database with processed }, ?_⟩
  simp only [healthy, postgres, Statement.refusal, Statement.run, inserted]

theorem wp_claimInline (unclaimed : msgId ∉ database.processed.ids) {durable : Database}
    {post : Except WriteError Bool → Transacted Database → Prop}
    (returns : ∀ after, post (.ok true) ⟨durable, some after⟩) :
    (claimInline msgId stream).wp healthy.anyway post ⟨durable, some database⟩ := by
  refine Dialect.wp_statement_bind (fun choice answer after ran => ?_) fun choice error ran => ?_
  · obtain ⟨claimed, isClaimed⟩ := healthy_claim unclaimed stream choice
    obtain ⟨rfl, rfl⟩ := Prod.mk.inj (Except.ok.inj (ran.symm.trans isClaimed))
    exact returns after
  · obtain ⟨claimed, isClaimed⟩ := healthy_claim unclaimed stream choice
    cases ran.symm.trans isClaimed

theorem wp_claimMessage (unclaimed : msgId ∉ database.processed.ids) {durable : Database}
    {post : Except WriteError Bool → Transacted Database → Prop}
    (returns : ∀ after, post (.ok true) ⟨durable, some after⟩) :
    (claimMessage msgId stream).wp healthy.anyway post ⟨durable, some database⟩ := by
  rw [claimMessage, Program.bind_eq_bind, Program.wp_bind]
  refine Dialect.wp_statement_tryCatch (fun choice answer after ran => ?_)
    fun choice error ran => ?_
  · obtain ⟨claimed, isClaimed⟩ := healthy_claim unclaimed stream choice
    obtain ⟨rfl, rfl⟩ := Prod.mk.inj (Except.ok.inj (ran.symm.trans isClaimed))
    exact returns after
  · obtain ⟨claimed, isClaimed⟩ := healthy_claim unclaimed stream choice
    cases ran.symm.trans isClaimed

theorem wp_claim (kind : RowKind) (unclaimed : msgId ∉ database.processed.ids)
    {durable : Database} {post : Except WriteError Bool → Transacted Database → Prop}
    (returns : ∀ after, post (.ok true) ⟨durable, some after⟩) :
    (kind.writer.claim msgId stream).wp healthy.anyway post ⟨durable, some database⟩ := by
  cases kind with
  | agentLog => exact wp_claimInline unclaimed returns
  | _ => exact wp_claimMessage unclaimed returns

/-! ## Rows -/

theorem columnIs_none (column : String) (row : Row) : columnIs column .none row = false := by
  unfold columnIs
  split <;> simp_all

theorem repeats_eq_false {table : Table} {values : Row}
    (missing : ∀ key ∈ table.uniqueKeys, ∃ column ∈ key, get values column = .none) :
    database.repeats table values = false := by
  rw [Database.repeats, List.any_eq_false]
  intro key member
  obtain ⟨column, inside, isNone⟩ := missing key member
  simp only [Bool.not_eq_true, List.any_eq_false, List.all_eq_true, not_forall]
  exact fun row _ => ⟨column, inside, by simp [isNone, columnIs_none]⟩

theorem repeats_of_unkeyed {table : Table} {values : Row} (unkeyed : table.uniqueKeys = []) :
    database.repeats table values = false :=
  repeats_eq_false (by simp [unkeyed])

theorem repeats_events {values : Row} (missing : get values "idempotency_key" = .none) :
    database.repeats .events values = false := by
  refine repeats_eq_false fun key member => ?_
  obtain rfl := List.mem_singleton.mp member
  exact ⟨_, List.mem_singleton_self _, missing⟩

theorem of_check_bind {first : Except WriteError Unit} {rest : Unit → Except WriteError Unit}
    (checked : (first >>= rest) = .ok ()) : first = .ok () ∧ rest () = .ok () := by
  cases first with
  | error error => cases checked
  | ok _ => exact ⟨rfl, checked⟩

theorem of_checkRow {modelName : String} {requiredFields : List String}
    (checked : writer.checkRow modelName requiredFields msgId data = .ok ()) :
    writer.validateSchemaV3 data modelName = .ok () ∧
      SafeWriter.validatePayload data requiredFields = .ok () ∧
        SafeWriter.logWriteOperation msgId = .ok () := by
  obtain ⟨schema, rest⟩ := of_check_bind checked
  obtain ⟨fields, audited⟩ := of_check_bind rest
  exact ⟨schema, fields, audited⟩

theorem of_checkEmbedding (checked : checkEmbedding data = .ok ()) :
    ∃ embedding, get data "embedding" = .list embedding ∧
      decide (embedding.length = 1536) = true ∧ embedding.all isNumber = true := by
  unfold checkEmbedding at checked
  split at checked
  · next embedding isList =>
      obtain ⟨long, numeric⟩ := of_check_bind checked
      exact ⟨embedding, isList, of_require long, of_require numeric⟩
  · cases checked

/-- A writer of one row comes to a row with the columns of its table, unless the call is not spared;
the row can be inserted and the log line written exactly where it is. -/
structure RowKind.Judged (kind : RowKind) (writer : SafeWriter) (database : Database)
    (now msgId : String) (data : Payload) : Prop where
  raises : ∀ error, kind.writer.values writer now msgId data = .error error →
    ¬kind.Spared database data
  maps : ∀ values, kind.writer.values writer now msgId data = .ok values →
    kind.writer.table.maps values = true
  spared : ∀ values, kind.writer.values writer now msgId data = .ok values →
    (kind.Spared database data ↔
      database.repeats kind.writer.table values = false ∧ kind.writer.logged data = .ok ())

theorem judged_of_row {kind : RowKind} {row : Row}
    (isRow : kind.writer.values writer now msgId data = .ok row)
    (maps : kind.writer.table.maps row = true)
    (spared : kind.Spared database data ↔
      database.repeats kind.writer.table row = false ∧ kind.writer.logged data = .ok ()) :
    kind.Judged writer database now msgId data where
  raises error isError := nomatch isRow.symm.trans isError
  maps values isValues := by
    obtain rfl := Except.ok.inj (isRow.symm.trans isValues)
    exact maps
  spared values isValues := by
    obtain rfl := Except.ok.inj (isRow.symm.trans isValues)
    exact spared

theorem judged_agentLog (checked : RowKind.agentLog.check writer msgId data = .ok ()) :
    RowKind.agentLog.Judged writer database now msgId data := by
  obtain ⟨schema, fields, audited⟩ := of_checkRow checked
  refine judged_of_row (by simp only [RowKind.writer, writeAgentLog, schema, fields, audited]; rfl)
    (by simp [RowKind.writer, writeAgentLog, Table.maps, Table.attributes]) ?_
  rw [and_iff_right (repeats_of_unkeyed rfl)]
  simp only [RowKind.Spared, RowKind.writer, writeAgentLog, item]
  cases data.lookup "agent_id" with
  | none => exact ⟨nofun, nofun⟩
  | some agentId => exact ⟨fun _ => rfl, fun _ => rfl⟩

theorem judged_tradePerformance
    (checked : RowKind.tradePerformance.check writer msgId data = .ok ()) :
    RowKind.tradePerformance.Judged writer database now msgId data := by
  obtain ⟨schema, fields, audited⟩ := of_checkRow checked
  cases entered : data.lookup "entry_time" with
  | none =>
      have missing : RowKind.tradePerformance.writer.values writer now msgId data =
          .error (.keyError "entry_time") := by
        simp only [RowKind.writer, writeTradePerformance, schema, fields, audited, item, entered]
        rfl
      refine ⟨fun _ _ spared => ?_, fun values isValues => (nomatch missing.symm.trans isValues),
        fun values isValues => (nomatch missing.symm.trans isValues)⟩
      have given := spared.1
      rw [entered] at given
      cases given
  | some entryTime =>
      refine judged_of_row (by
        simp only [RowKind.writer, writeTradePerformance, schema, fields, audited, item, entered]
        rfl) (by simp [RowKind.writer, writeTradePerformance, Table.maps, Table.attributes]) ?_
      rw [RowKind.Spared, entered]
      exact ⟨fun spared => ⟨spared.2, rfl⟩, fun fresh => ⟨rfl, fresh.1⟩⟩

theorem judged_vectorMemory (checked : RowKind.vectorMemory.check writer msgId data = .ok ()) :
    RowKind.vectorMemory.Judged writer database now msgId data := by
  obtain ⟨schema, afterSchema⟩ := of_check_bind checked
  obtain ⟨fields, afterFields⟩ := of_check_bind afterSchema
  obtain ⟨embedded, audited⟩ := of_check_bind afterFields
  obtain ⟨embedding, isList, long, numeric⟩ := of_checkEmbedding embedded
  exact judged_of_row
    (by
      simp only [RowKind.writer, writeVectorMemory, schema, fields, audited, isList, long, numeric]
      rfl)
    (by simp [RowKind.writer, writeVectorMemory, Table.maps, Table.attributes])
    ⟨fun _ => ⟨repeats_of_unkeyed rfl, rfl⟩, fun _ => trivial⟩

theorem maps_event {eventType entityType : String} {entityId : Value} :
    Table.events.maps (eventValues eventType entityType entityId data) = true := by
  simp [Table.maps, Table.attributes, eventValues]

theorem judged_of_check (kind : RowKind) (checked : kind.check writer msgId data = .ok ()) :
    kind.Judged writer database now msgId data := by
  cases kind with
  | agentLog => exact judged_agentLog checked
  | tradePerformance => exact judged_tradePerformance checked
  | vectorMemory => exact judged_vectorMemory checked
  | riskAlert =>
      exact judged_of_row rfl
        (by simp [RowKind.writer, writeRiskAlert, Table.maps, Table.attributes])
        ⟨fun _ => ⟨repeats_events rfl, rfl⟩, fun _ => trivial⟩
  | agentGrade =>
      obtain ⟨schema, fields, audited⟩ := of_checkRow checked
      exact judged_of_row
        (by simp only [RowKind.writer, writeAgentGrade, schema, fields, audited]; rfl)
        (by simp [RowKind.writer, writeAgentGrade, Table.maps, Table.attributes])
        ⟨fun _ => ⟨repeats_of_unkeyed rfl, rfl⟩, fun _ => trivial⟩
  | reflectionOutput =>
      obtain ⟨schema, fields, audited⟩ := of_checkRow checked
      exact judged_of_row
        (by
          unfold RowKind.writer writeReflectionOutput
          dsimp only
          rw [schema, fields, audited]
          rfl)
        (by rfl)
        ⟨fun _ => ⟨repeats_of_unkeyed rfl, rfl⟩, fun _ => trivial⟩
  | icWeight =>
      obtain ⟨schema, fields, audited⟩ := of_checkRow checked
      exact judged_of_row
        (by simp only [RowKind.writer, writeIcWeight, checkedEvent, schema, fields, audited]; rfl)
        maps_event ⟨fun _ => ⟨repeats_events rfl, rfl⟩, fun _ => trivial⟩
  | strategyProposal =>
      obtain ⟨schema, fields, audited⟩ := of_checkRow checked
      exact judged_of_row
        (by
          simp only [RowKind.writer, writeStrategyProposal, checkedEvent, schema, fields, audited]
          rfl)
        maps_event ⟨fun _ => ⟨repeats_events rfl, rfl⟩, fun _ => trivial⟩
  | notification =>
      obtain ⟨schema, fields, audited⟩ := of_checkRow checked
      exact judged_of_row
        (by
          simp only [RowKind.writer, writeNotification, checkedEvent, schema, fields, audited]
          rfl)
        maps_event ⟨fun _ => ⟨repeats_events rfl, rfl⟩, fun _ => trivial⟩

/-! ## Calls -/

/-- The outcome of a call that is spared, and of no other, is `True`. -/
abbrev TrueIff (spared : Prop) (outcome : Except WriteError Bool) : Prop :=
  outcome = .ok true ↔ spared

theorem trueIff_error {spared : Prop} {error : WriteError} (not : ¬spared) :
    TrueIff spared (.error error) :=
  ⟨nofun, fun holds => absurd holds not⟩

theorem trueIff_true {spared : Prop} (holds : spared) : TrueIff spared (.ok true) :=
  ⟨fun _ => holds, fun _ => rfl⟩

theorem wp_row {kind : RowKind} (given : msgId ≠ "")
    (checked : kind.check writer msgId data = .ok ()) (unclaimed : msgId ∉ database.processed.ids) :
    (kind.writer.write writer now msgId stream data).wp healthy.anyway
      (fun outcome _ => TrueIff (kind.Spared database data) outcome) ⟨database, none⟩ := by
  have judged : kind.Judged writer database now msgId data := judged_of_check kind checked
  rw [RowWriter.write, if_neg given]
  refine Dialect.wp_transaction (fun _ => rfl) _ ?_
  refine Dialect.wp_ofExcept_bind (fun error isError => trueIff_error (judged.raises error isError))
    fun values isValues => ?_
  have spared := judged.spared values isValues
  refine Dialect.wp_statement_bind (fun choice answer after ran => ?_) fun choice error ran => ?_
  · rw [healthy_insert (judged.maps values isValues)] at ran
    split at ran
    · cases ran
    · next fresh =>
        obtain ⟨-, rfl⟩ := Prod.mk.inj (Except.ok.inj ran)
        have still : msgId ∉ (database.add kind.writer.table
          (values ++ choice.generated)).processed.ids := unclaimed
        rw [Program.bind_eq_bind, Program.wp_bind]
        refine wp_claim kind still fun after => ?_
        rw [Program.andThen_ok]
        refine Dialect.wp_ofExcept_bind nofun fun _ _ => ?_
        refine Dialect.wp_ofExcept_bind (fun error isError => ?_) fun _ logged => ?_
        · refine trueIff_error fun holds => ?_
          rw [(spared.mp holds).2] at isError
          cases isError
        · exact ⟨rfl, trueIff_true (spared.mpr ⟨eq_false_of_ne_true fresh, logged⟩)⟩
  · rw [healthy_insert (judged.maps values isValues)] at ran
    split at ran
    · next repeats =>
        refine trueIff_error fun holds => ?_
        rw [(spared.mp holds).1] at repeats
        cases repeats
    · cases ran

theorem maps_orderValues : Table.orders.maps (orderValues data) = true := by
  simp [Table.maps, Table.attributes, orderValues]

theorem repeats_orderValues :
    database.repeats .orders (orderValues data) = database.repeats .orders data := by
  simp [Database.repeats, Table.uniqueKeys, orderValues, get, List.lookup_cons]

theorem maps_orderEvent {entityId : Value} :
    Table.events.maps (eventValues "order.created" "order" entityId data ++
      [("idempotency_key", .str msgId)]) = true := by
  simp [Table.maps, Table.attributes, eventValues]

theorem repeats_orderEvent {entityId : Value} {row : Row} :
    (database.add .orders row).repeats .events (eventValues "order.created" "order" entityId data ++
        [("idempotency_key", .str msgId)]) =
      database.repeats .events [("idempotency_key", .str msgId)] := by
  simp [Database.repeats, Table.uniqueKeys, Database.add, eventValues, get, List.lookup_cons]

theorem wp_writeOrder (given : msgId ≠ "") (checked : writer.checkOrder msgId data = .ok ())
    (unclaimed : msgId ∉ database.processed.ids) :
    (writer.writeOrder msgId stream data).wp healthy.anyway
      (fun outcome _ => TrueIff ((Write.order msgId stream data).Spared database) outcome)
        ⟨database, none⟩ := by
  rw [SafeWriter.writeOrder, if_neg given]
  refine Dialect.wp_transaction (fun _ => rfl) _ ?_
  refine Dialect.wp_ofExcept_bind (fun error isError => nomatch checked.symm.trans isError)
    fun _ _ => ?_
  rw [Program.bind_eq_bind, Program.wp_bind]
  refine Dialect.wp_statement_tryCatch (fun choice order ordered ran => ?_)
    fun choice error ran => ?_
  · rw [healthy_insert maps_orderValues, repeats_orderValues] at ran
    split at ran
    · cases ran
    · next fresh =>
        obtain ⟨-, rfl⟩ := Prod.mk.inj (Except.ok.inj ran)
        rw [Program.andThen_ok]
        refine Dialect.wp_statement_bind (fun choice event written ran => ?_)
          fun choice error ran => ?_
        · rw [healthy_insert maps_orderEvent, repeats_orderEvent] at ran
          split at ran
          · cases ran
          · next unrepeated =>
              have kept : written.processed = database.processed :=
                (congrArg (fun result => result.2.processed) (Except.ok.inj ran)).symm
              have still : msgId ∉ written.processed.ids := kept ▸ unclaimed
              refine Dialect.wp_statement_bind (fun choice answer after ran => ?_)
                fun choice error ran => ?_
              · exact ⟨rfl, trueIff_true ⟨eq_false_of_ne_true fresh,
                  eq_false_of_ne_true unrepeated⟩⟩
              · obtain ⟨after, claimed⟩ := healthy_addClaim still stream choice
                cases ran.symm.trans claimed
        · rw [healthy_insert maps_orderEvent, repeats_orderEvent] at ran
          split at ran
          · next repeats =>
              refine trueIff_error fun holds => ?_
              rw [holds.2] at repeats
              cases repeats
          · cases ran
  · rw [healthy_insert maps_orderValues, repeats_orderValues] at ran
    split at ran
    · next repeats =>
        obtain rfl := Except.error.inj ran
        rw [SafeWriter.existingOrder.eq_def]
        refine Dialect.wp_aborted_bind (trueIff_error fun holds => ?_)
        rw [holds.1] at repeats
        cases repeats
    · cases ran

/-- A position is written with a column that the mapped class has not. -/
theorem maps_positionValues : Table.positions.maps (SafeWriter.positionValues data) = false := by
  simp [Table.maps, Table.attributes, SafeWriter.positionValues, SafeWriter.positionChanges]

theorem wp_writeExecution (given : msgId ≠ "") :
    (writer.writeExecution msgId stream data).wp healthy.anyway
      (fun outcome _ => TrueIff ((Write.execution msgId stream data).Spared database) outcome)
        ⟨database, none⟩ := by
  have fails {error : WriteError} :
      TrueIff ((Write.execution msgId stream data).Spared database) (.error error) :=
    trueIff_error id
  rw [SafeWriter.writeExecution, if_neg given]
  refine Dialect.wp_transaction (fun _ => rfl) _ ?_
  refine Dialect.wp_ofExcept_bind (fun _ _ => fails) fun _ _ => ?_
  refine Dialect.wp_statement_bind (fun _ _ _ _ => ?_) fun _ _ _ => fails
  refine Dialect.wp_statement_bind (fun _ _ _ _ => ?_) fun _ _ _ => fails
  refine Dialect.wp_ofExcept_bind (fun _ _ => fails) fun _ _ => ?_
  refine Dialect.wp_statement_bind (fun choice _ after ran => ?_) fun _ _ _ => fails
  simp only [healthy, postgres, Statement.refusal, maps_positionValues, Bool.false_and,
    Bool.false_eq_true, if_false] at ran
  cases ran

theorem healthy_insertMetric {id : ℕ} {metric : Metric} (choice : DatabaseChoice) :
    ∃ rowcount after,
      healthy.run (.insertMetric id (SafeWriter.metricValues metric)) choice database =
        .ok (rowcount, after) ∧ after.processed = database.processed := by
  have maps : Table.systemMetrics.maps (SafeWriter.metricValues metric) = true := by
    simp [Table.maps, Table.attributes, SafeWriter.metricValues]
  simp only [healthy, postgres, Statement.refusal, maps, if_true, Statement.run]
  split
  · exact ⟨0, database, rfl, rfl⟩
  · exact ⟨1, _, rfl, rfl⟩

theorem wp_writeSystemMetric {metric : Metric}
    (accepted : (Write.systemMetric msgId metric).Accepted writer)
    (fits : (Write.systemMetric msgId metric).Fits writer)
    (unclaimed : msgId ∉ database.processed.ids) :
    (writer.writeSystemMetric msgId metric).wp healthy.anyway
      (fun outcome _ => TrueIff ((Write.systemMetric msgId metric).Spared database) outcome)
        ⟨database, none⟩ := by
  obtain ⟨isMetricId, given, named⟩ := accepted
  obtain ⟨id, isId⟩ := fits
  have checked : writer.checkMetric msgId metric = .ok id := by
    rw [SafeWriter.checkMetric, named, isId, decide_eq_true given]
    rfl
  rw [SafeWriter.writeSystemMetric, isMetricId]
  refine Dialect.wp_transaction (fun _ => rfl) _ ?_
  refine Dialect.wp_ofExcept_bind (fun error isError => nomatch checked.symm.trans isError)
    fun _ _ => ?_
  refine Dialect.wp_statement_bind (fun choice answer written ran => ?_) fun choice error ran => ?_
  · obtain ⟨rowcount, after, inserted, kept⟩ := healthy_insertMetric choice
    obtain ⟨-, rfl⟩ := Prod.mk.inj (Except.ok.inj (ran.symm.trans inserted))
    rw [Program.bind_eq_bind, Program.wp_bind]
    refine wp_claimMessage (kept ▸ unclaimed) fun after => ?_
    rw [Program.andThen_ok]
    exact Dialect.wp_ofExcept_bind nofun fun _ _ => ⟨rfl, trueIff_true trivial⟩
  · obtain ⟨rowcount, after, inserted, -⟩ := healthy_insertMetric choice
    cases ran.symm.trans inserted

theorem wp_program {write : Write} (accepted : write.Accepted writer) (fits : write.Fits writer)
    (unclaimed : write.msgId ∉ database.processed.ids) :
    (write.program writer now).wp healthy.anyway
      (fun outcome _ => TrueIff (write.Spared database) outcome) ⟨database, none⟩ := by
  cases write with
  | order msgId stream data => exact wp_writeOrder accepted.1 accepted.2 unclaimed
  | execution msgId stream data => exact wp_writeExecution accepted.1
  | row kind msgId stream data => exact wp_row accepted.1 accepted.2 unclaimed
  | systemMetric msgId metric => exact wp_writeSystemMetric accepted fits unclaimed

theorem commits_iff {call : Call} (accepted : call.write.Accepted writer)
    (fits : call.write.Fits writer) (unclaimed : call.write.msgId ∉ database.processed.ids) :
    call.Commits writer database ↔ call.write.Spared database := by
  have outcome := Handler.exec_of_wp
    (@wp_program writer database call.now _ accepted fits unclaimed) call.choices
    fun _ => trivial
  refine ⟨fun commits => outcome.mp commits.1, fun spared => ⟨outcome.mpr spared, ?_⟩⟩
  obtain ⟨others, same⟩ := Handler.exec_of_refines healthy_refines
    (call.write.program writer call.now) call.choices ⟨database, none⟩
  have returned := outcome.mpr spared
  rw [same] at returned ⊢
  rcases (atomic_write writer call).exec others database with ⟨error, isError, -⟩ | ⟨effect, -⟩
  · rw [isError] at returned
    cases returned
  · exact effect

/-! ## Agent logs -/

theorem isGiven_of_truthy {field : String} (truthy : (get data field).truthy = true) :
    SafeWriter.isGiven data field = true := by
  unfold SafeWriter.isGiven
  unfold get at truthy
  cases held : data.lookup field with
  | none => rw [held] at truthy; cases truthy
  | some value =>
      rw [held] at truthy
      cases value with
      | none => cases truthy
      | _ => rfl

theorem accepted_of_route {event : Payload} (given : msgId ≠ "")
    (routed : Dashboard.determinePersistRoute true "agent_logs" event = .db) :
    (Write.row .agentLog msgId stream event).Accepted writer := by
  have complete : Dashboard.shouldRouteAgentLogToMemory event = false := by
    rw [← Bool.not_eq_true]
    intro toMemory
    simp [Dashboard.determinePersistRoute, Dashboard.dbStreams, toMemory] at routed
  obtain ⟨versioned, filled⟩ := Bool.or_eq_false_iff.mp complete
  have version : (get event "schema_version").isText dbSchemaVersion = true := by
    simpa [Dashboard.field, get, Value.get, dbSchemaVersion] using versioned
  have truthy : ∀ name ∈ ["source", "trace_id", "level", "message"],
      (get event name).truthy = true := by
    intro name member
    simpa [Dashboard.field, get, Value.get] using List.any_eq_false.mp filled name member
  refine ⟨given, ?_⟩
  have schema : writer.validateSchemaV3 event "AgentLog" = .ok () := by
    unfold SafeWriter.validateSchemaV3
    unfold get at version
    cases held : event.lookup "schema_version" with
    | none => rw [held] at version; cases version
    | some value =>
        rw [held] at version
        simp only [Option.getD_some] at version
        simp only [version, truthy "source" (by simp), truthy "trace_id" (by simp)]
        rfl
  have fields : SafeWriter.validatePayload event ["level", "message"] = .ok () := by
    have level := isGiven_of_truthy (truthy "level" (by simp))
    have message := isGiven_of_truthy (truthy "message" (by simp))
    simp only [SafeWriter.validatePayload, List.find?, level, message]
    rfl
  rw [RowKind.check, SafeWriter.checkRow, schema, fields, SafeWriter.logWriteOperation,
    decide_eq_true given]
  rfl

end

/-! ## Accepted calls -/

/-- An agent log with everything that is checked. -/
def startedLog : Payload :=
  [("schema_version", .str "v3"), ("source", .str "agent"), ("trace_id", .str "trace-1"),
    ("level", .str "INFO"), ("message", .str "started")]

def logged (data : Payload) : Call where
  write := .row .agentLog "log-1" "agent_logs" data
  now := "2025-01-02T15:04:05+00:00"
  choices _ := {}

end TradingControl.Writer
