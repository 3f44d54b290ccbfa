import TradingControl.Execution.ExecutionEngine

/-!
# Quiet operations

Most of what the engine awaits has no bearing on the book, on the guards of an order or on the
tables.  Programs of such operations are framed once here, for every reading of the engine.
-/

namespace TradingControl

open Effects Python Engine

/-- Keys that neither hold the book nor guard an order. -/
def Key.Ambient : Key → Prop
  | .inFlightOrder => True
  | .recentOutcomes => True
  | .paperOrder _ => True
  | _ => False

/-- Operations that leave the book, the guards and the committed tables alone. -/
def EngineOp.Quiet : EngineOp → Prop
  | .redis (.get _) => True
  | .redis (.setnx .paperCash cash) => cash = defaultPaperCash
  | .redis command => command.key.Ambient
  | .database _ .commit => False
  | .tradesSubmitted _ => False
  | _ => True

/-- Quiet operations that write nothing to Redis but the initial cash. -/
def EngineOp.Mild : EngineOp → Prop
  | .redis (.get _) => True
  | .redis (.setnx .paperCash cash) => cash = defaultPaperCash
  | .redis _ => False
  | .database _ .commit => False
  | .tradesSubmitted _ => False
  | _ => True

theorem EngineOp.Mild.quiet {op : EngineOp} (mild : op.Mild) : op.Quiet := by
  cases op with
  | redis command =>
      cases command with
      | get key => trivial
      | setnx key value =>
          cases key with
          | paperCash => exact mild
          | _ => exact mild.elim
      | _ => exact mild.elim
  | database session statement =>
      cases statement with
      | commit => exact mild
      | _ => trivial
  | tradesSubmitted order => exact mild
  | _ => trivial

/-- Two worlds that differ in nothing an order depends on. -/
structure Steady (before after : World) : Prop where
  book : after.book = before.book
  orderLock : ∀ symbol, after.redis (.orderLock symbol) = before.redis (.orderLock symbol)
  orderDedup : ∀ key, after.redis (.orderDedup key) = before.redis (.orderDedup key)
  orders : after.db.orders = before.db.orders
  positions : after.db.positions = before.db.positions
  auditLog : after.db.auditLog = before.db.auditLog
  nextId : before.db.nextId ≤ after.db.nextId
  submitted : after.submitted = before.submitted

namespace Steady

theorem refl (world : World) : Steady world world where
  book := rfl
  orderLock _ := rfl
  orderDedup _ := rfl
  orders := rfl
  positions := rfl
  auditLog := rfl
  nextId := Nat.le_refl _
  submitted := rfl

theorem trans {before middle after : World} (first : Steady before middle)
    (second : Steady middle after) : Steady before after where
  book := second.book.trans first.book
  orderLock symbol := (second.orderLock symbol).trans (first.orderLock symbol)
  orderDedup key := (second.orderDedup key).trans (first.orderDedup key)
  orders := second.orders.trans first.orders
  positions := second.positions.trans first.positions
  auditLog := second.auditLog.trans first.auditLog
  nextId := first.nextId.trans second.nextId
  submitted := second.submitted.trans first.submitted

/-- A world that differs in ambient keys, events and the runtime store only. -/
theorem of_redis {before after : World} (db : after.db = before.db)
    (submitted : after.submitted = before.submitted) (book : after.book = before.book)
    (orderLock : ∀ symbol, after.redis (.orderLock symbol) = before.redis (.orderLock symbol))
    (orderDedup : ∀ key, after.redis (.orderDedup key) = before.redis (.orderDedup key)) :
    Steady before after where
  book := book
  orderLock := orderLock
  orderDedup := orderDedup
  orders := by rw [db]
  positions := by rw [db]
  auditLog := by rw [db]
  nextId := by rw [db]
  submitted := submitted

end Steady

theorem steady_ambient (command : KeyValue.Command Key.Value) (ambient : command.key.Ambient)
    (world : World) : Steady world { world with redis := command.apply world.redis } := by
  have kept : ∀ key, key ≠ command.key → command.apply world.redis key = world.redis key :=
    fun key different => command.apply_other world.redis different
  have outside : ∀ {key : Key}, ¬key.Ambient → key ≠ command.key := by
    rintro key loud rfl
    exact loud ambient
  apply Steady.of_redis
  · rfl
  · rfl
  · exact World.book_congr (kept _ (outside fun loud => loud))
      fun symbol => kept _ (outside fun loud => loud)
  · exact fun symbol => kept _ (outside fun loud => loud)
  · exact fun key => kept _ (outside fun loud => loud)

theorem steady_writeOnceCash (world : World) :
    Steady world (world.writeOnce .paperCash defaultPaperCash) := by
  apply Steady.of_redis
  · rfl
  · rfl
  · simp
  · simp
  · simp

/-- A statement other than `COMMIT` changes the row sequence at most. -/
theorem steady_statement (session : Session) (statement : Statement) (quiet : statement ≠ .commit)
    (world : World) : Steady world { world with db := (statement.run session world.db).2 } := by
  have drawn : Steady world { world with db := { world.db with nextId := world.db.nextId + 1 } } :=
    { Steady.refl world with nextId := Nat.le_succ _ }
  cases statement with
  | commit => exact absurd rfl quiet
  | insertOrder key =>
      cases found : (world.db.view session).findOrder key with
      | some row => simpa [Statement.run, found] using Steady.refl world
      | none => simpa [Statement.run, found] using drawn
  | insertOrderOnce key =>
      cases found : (world.db.view session).findOrder key with
      | some row => simpa [Statement.run, found] using Steady.refl world
      | none => simpa [Statement.run, found] using drawn
  | insertPosition => exact drawn
  | _ => exact Steady.refl world

/-- A quiet operation is steady, whatever the environment chooses. -/
theorem steady_of_quiet {op : EngineOp} (quiet : op.Quiet) (choice : Choice) (world : World) :
    Steady world (engineHandler op choice world).2 := by
  cases op with
  | redis command =>
      by_cases fails : choice.redisFails = true
      · simpa [engineHandler, fails] using Steady.refl world
      · have effect : (engineHandler (.redis command) choice world).2 =
            { world with redis := command.apply world.redis } := by
          simp [engineHandler, fails]
        rw [effect]
        cases command with
        | get key => exact Steady.refl world
        | setnx key value =>
            cases key with
            | paperCash =>
                obtain rfl : value = defaultPaperCash := quiet
                exact steady_writeOnceCash world
            | _ => exact steady_ambient (.setnx _ value) quiet world
        | set key value => exact steady_ambient (.set key value) quiet world
        | delete key => exact steady_ambient (.delete key) quiet world
        | modify key change => exact steady_ambient (.modify key change) quiet world
  | database session statement =>
      by_cases fails : choice.dbFails = true
      · simpa [engineHandler, fails] using Steady.refl world
      · have effect : (engineHandler (.database session statement) choice world).2 =
            { world with db := (statement.run session world.db).2 } := by
          simp [engineHandler, fails]
        rw [effect]
        refine steady_statement session statement ?_ world
        rintro rfl
        exact quiet
  | publish event =>
      by_cases fails : choice.redisFails = true
      · simpa [engineHandler, fails] using Steady.refl world
      · have kept : Steady world { world with published := world.published ++ [event] } :=
          Steady.of_redis rfl rfl rfl (fun _ => rfl) fun _ => rfl
        simpa [engineHandler, fails] using kept
  | tradesSubmitted order => exact absurd quiet id
  | runtimeStore change => exact Steady.of_redis rfl rfl rfl (fun _ => rfl) fun _ => rfl
  | _ => exact Steady.refl world

/-! ## Mild and quiet programs -/

/-- Programs that issue quiet operations only. -/
def Engine.Quiet {α : Type} (program : Engine α) : Prop := program.Calls EngineOp.Quiet

/-- Programs that issue mild operations only. -/
def Engine.Mild {α : Type} (program : Engine α) : Prop := program.Calls EngineOp.Mild

namespace Engine

variable {α β : Type}

theorem Mild.quiet {program : Engine α} (mild : program.Mild) : program.Quiet :=
  Program.Calls.mono mild fun _ => EngineOp.Mild.quiet

theorem quiet_ret (value : α) : Quiet (.ret value : Engine α) := trivial

theorem quiet_bind {program : Engine α} {rest : α → Engine β} (first : program.Quiet)
    (second : ∀ value, (rest value).Quiet) : Quiet (program >>= rest) :=
  Program.calls_bind first second

theorem quiet_attempt {program : Engine α} (quiet : program.Quiet) : Quiet program.attempt :=
  Program.calls_attempt quiet

theorem mild_ret (value : α) : Mild (.ret value : Engine α) := trivial

theorem mild_raise (error : Failure) : Mild (.raise error : Engine α) := trivial

theorem mild_bind {program : Engine α} {rest : α → Engine β} (first : program.Mild)
    (second : ∀ value, (rest value).Mild) : Mild (program >>= rest) :=
  Program.calls_bind first second

theorem mild_attempt {program : Engine α} (mild : program.Mild) : Mild program.attempt :=
  Program.calls_attempt mild

theorem mild_redisGet (key : Key) : (redisGet key).Mild := Program.calls_perform trivial

theorem mild_database (session : Session) {statement : Statement} (quiet : statement ≠ .commit) :
    (database session statement).Mild := by
  apply Program.calls_perform
  cases statement with
  | commit => exact absurd rfl quiet
  | _ => trivial

theorem mild_isDbAvailable : isDbAvailable.Mild := Program.calls_perform trivial

theorem mild_isSymbolOpen (symbol : String) : (isSymbolOpen symbol).Mild :=
  Program.calls_perform trivial

theorem mild_isWithinNoTradeWindow : isWithinNoTradeWindow.Mild := Program.calls_perform trivial

theorem mild_uuid4 : uuid4.Mild := Program.calls_perform trivial

theorem mild_utcNow : utcNow.Mild := Program.calls_perform trivial

theorem mild_publish (event : StreamEvent) : (publish event).Mild := Program.calls_perform trivial

theorem mild_runtimeStore (change : RuntimeStore → RuntimeStore) : (runtimeStore change).Mild :=
  Program.calls_perform trivial

theorem mild_requireFloat (value : Option ℚ) : (requireFloat value).Mild := by
  cases value with
  | none => exact mild_raise _
  | some value => exact mild_ret _

theorem mild_getPosition (symbol : String) : (PaperBroker.getPosition symbol).Mild :=
  mild_bind (mild_redisGet _) fun _ => mild_ret _

theorem mild_getCash : PaperBroker.getCash.Mild :=
  mild_bind (Program.calls_perform rfl) fun _ => mild_bind (mild_redisGet _) fun _ => mild_ret _

/-! ### Validation, gates and sizing -/

theorem mild_isFallbackBlocked (config : Config) (parsed : ParsedDecision) (data : Decision) :
    (isFallbackBlocked config parsed data).Mild := by
  unfold isFallbackBlocked
  dsimp only
  split
  · exact mild_ret _
  split
  · exact mild_ret _
  split
  · exact mild_ret _
  · exact mild_bind (mild_getPosition _) fun _ => mild_ret _

theorem mild_parseAndValidate (config : Config) (data : Decision) :
    (parseAndValidate config data).Mild := by
  refine mild_bind mild_uuid4 fun strategyId => mild_bind mild_uuid4 fun traceId => ?_
  split
  · exact mild_ret _
  · refine mild_bind (mild_isFallbackBlocked _ _ _) fun blocked => ?_
    cases blocked with
    | true => exact mild_ret _
    | false => exact mild_ret _

theorem mild_isMarketOpen (config : Config) (symbol : String) :
    (isMarketOpen config symbol).Mild := by
  rw [isMarketOpen]
  split
  · exact mild_ret _
  · exact mild_isSymbolOpen _

theorem mild_readCachedMacroRegime (symbol : String) : (readCachedMacroRegime symbol).Mild := by
  refine mild_bind (mild_attempt (mild_redisGet _)) fun cached => ?_
  split
  · exact mild_ret _
  · exact mild_ret _

theorem mild_decisionThreshold (config : Config) (side symbol : String) :
    (decisionThreshold config side symbol).Mild := by
  refine mild_bind mild_isDbAvailable fun available => ?_
  dsimp only
  split
  · exact mild_bind (mild_readCachedMacroRegime _) fun _ => mild_ret _
  · exact mild_ret _

theorem mild_noTradeWindowGate (config : Config) (side : String) :
    (noTradeWindowGate config side).Mild := by
  rw [noTradeWindowGate]
  split
  · refine mild_bind mild_isWithinNoTradeWindow fun within => ?_
    split
    · exact mild_ret _
    · exact mild_ret _
  · exact mild_ret _

theorem mild_inFlightGate : inFlightGate.Mild := by
  refine mild_bind (mild_attempt (mild_redisGet _)) fun flag => ?_
  split
  · split
    · exact mild_ret _
    · exact mild_ret _
  · exact mild_ret _

theorem mild_checkCoolingOffGate (side : String) : (checkCoolingOffGate side).Mild := by
  rw [checkCoolingOffGate]
  split
  · exact mild_ret _
  · refine mild_bind (mild_attempt (mild_redisGet _)) fun outcomes => ?_
    split
    · split
      · exact mild_ret _
      · exact mild_ret _
    · exact mild_ret _

theorem mild_evaluatePreExecutionGates (config : Config) (side symbol : String)
    (signalConfidence reasoningScore : ℚ) (atr : Option ℚ) (absPctMove : ℚ) :
    (evaluatePreExecutionGates config side symbol signalConfidence reasoningScore atr
      absPctMove).Mild := by
  refine mild_bind (mild_isMarketOpen _ _) fun marketOpen =>
    mild_bind (mild_decisionThreshold _ _ _) fun threshold => ?_
  dsimp only
  split
  · exact mild_ret _
  refine mild_bind (mild_noTradeWindowGate _ _) fun window => ?_
  split
  · exact mild_ret _
  refine mild_bind mild_inFlightGate fun inFlight => ?_
  split
  · exact mild_ret _
  split
  · exact mild_ret _
  · exact mild_checkCoolingOffGate _

theorem mild_applyKellySizing (data : Decision) (nominalQty price : ℚ) :
    (applyKellySizing data nominalQty price).Mild := by
  refine mild_bind (mild_requireFloat _) fun sizePct => ?_
  split
  · exact mild_ret _
  · refine mild_bind (mild_attempt mild_getCash) fun cash => ?_
    split
    · exact mild_ret _
    · exact mild_ret _

theorem mild_parseTimestamp (config : Config) (data : Decision) :
    (parseTimestamp config data).Mild := by
  rw [parseTimestamp]
  split
  · exact mild_utcNow
  · split
    · exact mild_ret _
    · exact mild_raise _

theorem mild_atrRegimeRatio (data : Decision) : (atrRegimeRatio data).Mild := by
  rw [atrRegimeRatio]
  split
  · exact mild_ret _
  · exact mild_bind (mild_requireFloat _) fun _ => mild_ret _

/-- Nothing a decision depends on moves before the duplicate check. -/
theorem mild_prepareOrder (config : Config) (data : Decision) :
    (prepareOrder config data).Mild := by
  refine mild_bind (mild_parseAndValidate _ _) fun parsed => ?_
  split
  · exact mild_ret _
  · refine mild_bind (mild_atrRegimeRatio _) fun atr =>
      mild_bind (mild_requireFloat _) fun pct =>
        mild_bind (mild_evaluatePreExecutionGates _ _ _ _ _ _ _) fun gate => ?_
    split
    · exact mild_ret _
    · exact mild_bind (mild_applyKellySizing _ _ _) fun qty =>
        mild_bind (mild_parseTimestamp _ _) fun minute => mild_ret _

/-! ### Recording -/

theorem mild_publishFillEvents (ctx : FillContext) : (publishFillEvents ctx).Mild := by
  refine mild_bind (mild_publish _) fun _ => mild_bind (mild_publish _) fun _ => ?_
  split
  · exact mild_bind (mild_publish _) fun _ => mild_publish _
  · exact mild_publish _

theorem mild_recordFillToStore (ctx : FillContext) (brokerOrderId : String) :
    (recordFillToStore ctx brokerOrderId).Mild := by
  refine mild_bind (mild_runtimeStore _) fun _ => ?_
  split
  · exact mild_bind (mild_runtimeStore _) fun _ =>
      mild_bind (mild_getPosition _) fun _ => mild_runtimeStore _
  · exact mild_bind (mild_getPosition _) fun _ => mild_runtimeStore _

theorem mild_recordFill (config : Config) (data : Decision) (order : Order) (prior : Position)
    (orderId : String) (qty : ℚ) (receipt : BrokerOrder) :
    (recordFill config data order prior orderId qty receipt).Mild := by
  refine mild_bind mild_utcNow fun filledAt =>
    mild_bind (mild_requireFloat _) fun decisionCostUsd => ?_
  exact mild_bind (mild_recordFillToStore _ _) fun _ =>
    mild_bind (mild_publishFillEvents _) fun _ => mild_ret _

theorem mild_recordedConfidence (order : Order) : (recordedConfidence order).Mild := by
  refine mild_bind (mild_attempt (mild_database _ (by simp))) fun confidence => ?_
  split
  · exact mild_ret _
  · exact mild_ret _

theorem mild_publishCommitted (config : Config) (data : Decision) (order : Order)
    (prior : Position) (orderId : ℕ) (qty : ℚ) (receipt : BrokerOrder) :
    (publishCommitted config data order prior orderId qty receipt).Mild :=
  mild_bind (mild_recordedConfidence _) fun _ => mild_bind mild_utcNow fun _ =>
    mild_bind (mild_requireFloat _) fun _ => mild_publishFillEvents _

/-! ### Rows written but not committed -/

theorem mild_insertRejectedOrderOnce (session : Session)
    (idempotencyKey strategyId symbol side : String) (qty price : ℚ) :
    (OrderWriter.insertRejectedOrderOnce session idempotencyKey strategyId symbol side qty
      price).Mild := by
  refine mild_bind (mild_database _ (by simp)) fun id => ?_
  split
  · exact mild_ret _
  · refine mild_bind (mild_database _ (by simp)) fun row => ?_
    split
    · exact mild_ret _
    · exact mild_raise _

/-! ### Quiet pieces -/

theorem quiet_redisGet (key : Key) : (redisGet key).Quiet := (mild_redisGet key).quiet

theorem quiet_database (session : Session) {statement : Statement} (quiet : statement ≠ .commit) :
    (database session statement).Quiet := (mild_database session quiet).quiet

theorem quiet_uuid4 : uuid4.Quiet := mild_uuid4.quiet

theorem quiet_utcNow : utcNow.Quiet := mild_utcNow.quiet

theorem quiet_publish (event : StreamEvent) : (publish event).Quiet := (mild_publish event).quiet

theorem quiet_runtimeStore (change : RuntimeStore → RuntimeStore) : (runtimeStore change).Quiet :=
  (mild_runtimeStore change).quiet

theorem quiet_getPosition (symbol : String) : (PaperBroker.getPosition symbol).Quiet :=
  (mild_getPosition symbol).quiet

theorem quiet_getCash : PaperBroker.getCash.Quiet := mild_getCash.quiet

/-- Nothing a decision depends on moves before the duplicate check. -/
theorem quiet_prepareOrder (config : Config) (data : Decision) :
    (prepareOrder config data).Quiet := (mild_prepareOrder config data).quiet

theorem quiet_recordFill (config : Config) (data : Decision) (order : Order) (prior : Position)
    (orderId : String) (qty : ℚ) (receipt : BrokerOrder) :
    (recordFill config data order prior orderId qty receipt).Quiet :=
  (mild_recordFill config data order prior orderId qty receipt).quiet

theorem quiet_publishCommitted (config : Config) (data : Decision) (order : Order)
    (prior : Position) (orderId : ℕ) (qty : ℚ) (receipt : BrokerOrder) :
    (publishCommitted config data order prior orderId qty receipt).Quiet :=
  (mild_publishCommitted config data order prior orderId qty receipt).quiet

theorem quiet_insertRejectedOrderOnce (session : Session)
    (idempotencyKey strategyId symbol side : String) (qty price : ℚ) :
    (OrderWriter.insertRejectedOrderOnce session idempotencyKey strategyId symbol side qty
      price).Quiet :=
  (mild_insertRejectedOrderOnce session idempotencyKey strategyId symbol side qty price).quiet

/-- Raise the in-flight flag. -/
theorem quiet_setInFlight (value : String) : (redisSet .inFlightOrder value).Quiet :=
  Program.calls_perform trivial

theorem quiet_redisDelete {key : Key} (ambient : key.Ambient) : (redisDelete key).Quiet :=
  Program.calls_perform ambient

theorem quiet_redisModify {key : Key} (ambient : key.Ambient)
    (change : Option key.Value → key.Value) : (redisModify key change).Quiet :=
  Program.calls_perform ambient

theorem quiet_recordOutcome (realizedPnl : ℚ) : (recordOutcome realizedPnl).Quiet := by
  rw [recordOutcome]
  split
  · have ambient : Key.Ambient .recentOutcomes := trivial
    refine quiet_bind (quiet_attempt ?_) fun _ => quiet_ret _
    exact quiet_bind (quiet_redisModify ambient _) fun _ => quiet_redisModify ambient _
  · exact quiet_ret _

theorem quiet_clearInFlight : clearInFlight.Quiet :=
  quiet_bind (quiet_attempt (quiet_redisDelete trivial)) fun _ => quiet_ret _

/-! ### Framing -/

variable {faults : Prop}

/-- A quiet program ends in a world that agrees with the one it started in. -/
theorem wp_of_quiet {program : Engine α} (quiet : program.Quiet)
    {post : Except Failure α → World → Prop} {origin world : World} (start : Steady origin world)
    (finish : ∀ outcome after, Steady origin after → post outcome after) :
    program.wp (sequential faults) post world := by
  refine Program.wp_of_calls (fun op quietOp post before steady continue_ => ?_) quiet start finish
  exact fun choice _ => continue_ _ _ (steady.trans (steady_of_quiet quietOp choice before))

theorem steady_exec {program : Engine α} (quiet : program.Quiet) (choices : ℕ → Choice)
    (world : World) : Steady world (program.exec engineHandler choices world).2 := by
  have kept : ∀ op : EngineOp, op.Quiet → ∀ choice before, Steady world before →
      Steady world (engineHandler op choice before).2 :=
    fun op quiet choice before steady => steady.trans (steady_of_quiet quiet choice before)
  exact Handler.exec_of_calls kept quiet choices (.refl world)

/-- Step over a quiet program whose answer does not matter. -/
theorem wp_bind_quiet {program : Engine α} {rest : α → Engine β} (quiet : program.Quiet)
    {post : Except Failure β → World → Prop} {origin world : World} (start : Steady origin world)
    (raised : ∀ error after, Steady origin after → post (.error error) after)
    (continue_ : ∀ value after, Steady origin after →
      (rest value).wp (sequential faults) post after) :
    (program >>= rest).wp (sequential faults) post world := by
  rw [Program.bind_eq_bind, Program.wp_bind]
  refine wp_of_quiet quiet start fun outcome after steady => ?_
  cases outcome with
  | ok value => exact continue_ value after steady
  | error error => exact raised error after steady

end Engine

end TradingControl
