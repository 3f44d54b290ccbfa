import TradingControl.Execution.DecisionPayload
import TradingControl.Execution.ExecutionEngine

/-!
# One delivery at one moment

While Redis and the database answer, and the mode, the market, the clock and the draw of the
slippage are given, a delivery does one thing: what it leaves to be seen is a function of the
decision and the world.  The function is read off the programs of the engine here, once.
-/

namespace TradingControl

open Effects Python Engine

/-! ## Moments -/

/-- What the environment answers while a decision is handled, with the ids that may be drawn. -/
structure Moment where
  dbAvailable : Bool := true
  symbolOpen : Bool := true
  noTradeWindow : Bool := false
  slippage : Slippage := ⟨1 / 10000, by norm_num, by norm_num⟩
  utcMinute : String := "197001010000"
  ids : String → Prop := fun _ => True
  drawn : ∃ uuid, ids uuid := by exact ⟨"", trivial⟩

structure Moment.Permits (moment : Moment) (choice : Choice) : Prop where
  redis : choice.redisFails = false
  db : choice.dbFails = false
  dbAvailable : choice.dbAvailable = moment.dbAvailable
  symbolOpen : choice.symbolOpen = moment.symbolOpen
  noTradeWindow : choice.noTradeWindow = moment.noTradeWindow
  slippage : choice.slippage = moment.slippage
  utcMinute : choice.utcMinute = moment.utcMinute
  uuid : moment.ids choice.uuid

/-- The choice of a moment that draws an id. -/
def Moment.choice (moment : Moment) (uuid : String) : Choice where
  dbAvailable := moment.dbAvailable
  symbolOpen := moment.symbolOpen
  noTradeWindow := moment.noTradeWindow
  slippage := moment.slippage
  utcMinute := moment.utcMinute
  uuid := uuid

theorem Moment.permits_choice (moment : Moment) {uuid : String} (drawn : moment.ids uuid) :
    moment.Permits (moment.choice uuid) :=
  ⟨rfl, rfl, rfl, rfl, rfl, rfl, rfl, drawn⟩

abbrev Moment.during (moment : Moment) : Transformer engineSignature Failure World :=
  engineHandler.demonic moment.Permits

theorem Moment.monotone (moment : Moment) : Program.Monotone moment.during :=
  Handler.demonic_monotone _ _

section Rules

variable {moment : Moment} (world : World)

theorem Moment.during_iff (op : EngineOp) {answer : Except Failure op.Answer} {after : World}
    (determined : ∀ choice, moment.Permits choice → engineHandler op choice world = (answer, after))
    (post : Except Failure op.Answer → World → Prop) :
    moment.during op post world ↔ post answer after := by
  obtain ⟨uuid, drawn⟩ := moment.drawn
  constructor
  · intro holds
    have chosen := holds _ (moment.permits_choice drawn)
    rwa [determined _ (moment.permits_choice drawn)] at chosen
  · intro holds choice permitted
    rw [determined choice permitted]
    exact holds

theorem Moment.during_redis (command : KeyValue.Command Key.Value)
    (post : Except Failure command.Answer → World → Prop) :
    moment.during (.redis command) post world ↔
      post (.ok (command.answer world.redis))
        { world with redis := command.apply world.redis } :=
  Moment.during_iff world (.redis command)
    (fun choice permitted => by simp [engineHandler, permitted.redis]) post

namespace Moment

@[simp] theorem wp_redisGet (key : Key) (post : Except Failure (Option key.Value) → World → Prop) :
    Program.wp (α := no_index (Option key.Value)) moment.during (redisGet key) post world ↔
      post (.ok (world.redis key)) world := by
  rw [redisGet, Program.wp_perform]
  exact during_redis world (.get key) post

@[simp] theorem wp_redisSet (key : Key) (value : key.Value)
    (post : Except Failure Unit → World → Prop) :
    (redisSet key value).wp moment.during post world ↔ post (.ok ()) (world.write key value) := by
  rw [redisSet, Program.wp_perform]
  exact during_redis world (.set key value) post

@[simp] theorem wp_redisSetnx (key : Key) (value : key.Value)
    (post : Except Failure Bool → World → Prop) :
    (redisSetnx key value).wp moment.during post world ↔
      post (.ok (world.redis key).isNone) (world.writeOnce key value) := by
  rw [redisSetnx, Program.wp_perform]
  exact during_redis world (.setnx key value) post

@[simp] theorem wp_redisDelete (key : Key) (post : Except Failure Unit → World → Prop) :
    (redisDelete key).wp moment.during post world ↔ post (.ok ()) (world.erase key) := by
  rw [redisDelete, Program.wp_perform]
  exact during_redis world (.delete key) post

@[simp] theorem wp_redisModify (key : Key) (change : Option key.Value → key.Value)
    (post : Except Failure key.Value → World → Prop) :
    Program.wp (α := no_index key.Value) moment.during (redisModify key change) post world ↔
      post (.ok (change (world.redis key))) (world.write key (change (world.redis key))) := by
  rw [redisModify, Program.wp_perform]
  exact during_redis world (.modify key change) post

@[simp] theorem wp_database (session : Session) (statement : Statement)
    (post : Except Failure statement.Answer → World → Prop) :
    Program.wp (α := no_index statement.Answer) moment.during (database session statement) post
        world ↔
      post (statement.run session world.db).1
        { world with db := (statement.run session world.db).2 } := by
  rw [database, Program.wp_perform]
  exact during_iff world (.database session statement)
    (fun choice permitted => by simp [engineHandler, permitted.db]) post

@[simp] theorem wp_isDbAvailable (post : Except Failure Bool → World → Prop) :
    isDbAvailable.wp moment.during post world ↔ post (.ok moment.dbAvailable) world := by
  rw [isDbAvailable, Program.wp_perform]
  exact during_iff world .isDbAvailable
    (fun choice permitted => by simp [engineHandler, permitted.dbAvailable]) post

@[simp] theorem wp_uniform (post : Except Failure Slippage → World → Prop) :
    uniform.wp moment.during post world ↔ post (.ok moment.slippage) world := by
  rw [uniform, Program.wp_perform]
  exact during_iff world .uniform
    (fun choice permitted => by simp [engineHandler, permitted.slippage]) post

@[simp] theorem wp_uuid4 (post : Except Failure String → World → Prop) :
    uuid4.wp moment.during post world ↔ ∀ uuid, moment.ids uuid → post (.ok uuid) world := by
  rw [uuid4, Program.wp_perform]
  exact ⟨fun holds uuid drawn => holds _ (moment.permits_choice drawn),
    fun holds choice permitted => holds _ permitted.uuid⟩

@[simp] theorem wp_utcNow (post : Except Failure String → World → Prop) :
    utcNow.wp moment.during post world ↔ post (.ok moment.utcMinute) world := by
  rw [utcNow, Program.wp_perform]
  exact during_iff world .utcNow
    (fun choice permitted => by simp [engineHandler, permitted.utcMinute]) post

@[simp] theorem wp_tradesSubmitted (order : Submission)
    (post : Except Failure Unit → World → Prop) :
    (tradesSubmitted order).wp moment.during post world ↔ post (.ok ()) (world.submit order) := by
  rw [tradesSubmitted, Program.wp_perform]
  exact during_iff world (.tradesSubmitted order) (fun choice _ => rfl) post

@[simp] theorem wp_publish (event : StreamEvent) (post : Except Failure Unit → World → Prop) :
    (publish event).wp moment.during post world ↔
      post (.ok ()) { world with published := world.published ++ [event] } := by
  rw [publish, Program.wp_perform]
  exact during_iff world (.publish event)
    (fun choice permitted => by simp [engineHandler, permitted.redis]) post

@[simp] theorem wp_runtimeStore (change : RuntimeStore → RuntimeStore)
    (post : Except Failure Unit → World → Prop) :
    (runtimeStore change).wp moment.during post world ↔
      post (.ok ()) { world with runtime := change world.runtime } := by
  rw [runtimeStore, Program.wp_perform]
  exact during_iff world (.runtimeStore change) (fun choice _ => rfl) post

end Moment

end Rules

/-! ## What is left to be seen -/

/-- The book, the orders submitted (symbol, quantity and price), the outcomes pushed for the
cooling-off gate, and the PnL of the trade performance events. -/
@[ext] structure Seen where
  book : Book
  orders : List (String × ℚ × ℚ)
  outcomes : Option (List ℚ)
  performances : List ℚ

/-- PnL of a trade performance event. -/
def StreamEvent.performance : StreamEvent → Option ℚ
  | .tradePerformance ctx => some ctx.realizedPnl
  | _ => none

def World.seen (world : World) : Seen where
  book := world.book
  orders := world.submitted.map fun order => (order.symbol, order.qty, order.price)
  outcomes := world.redis .recentOutcomes
  performances := world.published.filterMap StreamEvent.performance

/-- Keys that show neither the book nor the outcomes. -/
def Key.Hidden : Key → Prop
  | .paperCash => False
  | .paperPosition _ => False
  | .recentOutcomes => False
  | _ => True

theorem Key.hidden_inFlightOrder : Key.Hidden .inFlightOrder := trivial

theorem Key.hidden_orderLock (symbol : String) : Key.Hidden (.orderLock symbol) := trivial

theorem Key.hidden_orderDedup (idempotencyKey : String) :
    Key.Hidden (.orderDedup idempotencyKey) := trivial

namespace World

variable (world : World) {key : Key}

theorem seen_of_redis {after : World} (submitted : after.submitted = world.submitted)
    (published : after.published = world.published)
    (kept : ∀ key, ¬key.Hidden → after.redis key = world.redis key) : after.seen = world.seen := by
  have book : after.book = world.book :=
    book_congr (kept _ id) fun symbol => kept _ id
  simp only [seen, submitted, published, book, kept .recentOutcomes id]

theorem seen_write (hidden : key.Hidden) (value : key.Value) :
    (world.write key value).seen = world.seen := by
  refine world.seen_of_redis rfl rfl fun other shown => write_redis_other world ?_ value
  rintro rfl
  exact shown hidden

theorem seen_erase (hidden : key.Hidden) : (world.erase key).seen = world.seen := by
  refine world.seen_of_redis rfl rfl fun other shown => erase_redis_other world ?_
  rintro rfl
  exact shown hidden

/-- The first use of the cash key does not show. -/
theorem seen_writeOnceCash : (world.writeOnce .paperCash defaultPaperCash).seen = world.seen := by
  ext1
  · exact world.book_writeOnceCash
  · rfl
  · simp [seen]
  · rfl

theorem seen_runtime (runtime : RuntimeStore) :
    ({ world with runtime := runtime } : World).seen = world.seen := rfl

theorem seen_db (db : Database) : ({ world with db := db } : World).seen = world.seen := rfl

/-- The event of a rejected sell has no PnL. -/
theorem seen_sellRejected (db : Database) (runtime : RuntimeStore) (symbol side : String) (qty : ℚ)
    (orderId idempotencyKey traceId : String) :
    ({ world with
        db := db
        runtime := runtime
        published :=
          world.published ++ [.sellRejected symbol side qty orderId idempotencyKey traceId] } :
      World).seen = world.seen := by
  ext1
  · rfl
  · rfl
  · rfl
  · simp [seen, StreamEvent.performance, List.filterMap]

end World

namespace Seen

def place (seen : Seen) (order : Submission) (fillPrice : ℚ) (now : String) : Seen :=
  { seen with
    book := seen.book.fill order.symbol order.side order.qty fillPrice now
    orders := seen.orders ++ [(order.symbol, order.qty, order.price)] }

/-- An outcome pushed. -/
def push (seen : Seen) (realizedPnl : ℚ) : Seen :=
  if realizedPnl = 0 then seen
  else
    { seen with
      outcomes :=
        some ((realizedPnl :: seen.outcomes.getD []).take recentOutcomesMaxlen) }

/-- A performance event published. -/
def perform (seen : Seen) (realizedPnl : ℚ) : Seen :=
  { seen with performances := seen.performances ++ [realizedPnl] }

end Seen

theorem World.seen_fill (world : World) (order : Submission) (fillPrice : ℚ)
    (now brokerOrderId : String) :
    (world.fill order fillPrice now brokerOrderId).seen =
      world.seen.place order fillPrice now := by
  ext1
  · exact book_fill world order fillPrice now brokerOrderId
  · simp [seen, fill, Seen.place]
  · simp [seen, fill, Seen.place]
  · rfl

/-! ## Programs at a moment -/

namespace Moment

variable {moment : Moment} {config : Config} {world : World}

@[simp] theorem wp_getPosition (symbol : String) (post : Except Failure Position → World → Prop) :
    (PaperBroker.getPosition symbol).wp moment.during post world ↔
      post (.ok (world.book.position symbol)) world := by
  simp [PaperBroker.getPosition, Program.wp_bind, World.book]

@[simp] theorem wp_getCash (post : Except Failure ℚ → World → Prop) :
    PaperBroker.getCash.wp moment.during post world ↔
      post (.ok world.book.cash) (world.writeOnce .paperCash defaultPaperCash) := by
  simp [PaperBroker.getCash, Program.wp_bind, World.writeOnce_cash]

theorem wp_placeOrder (round8 : ℚ → ℚ) (order : Submission)
    (post : Except Failure BrokerOrder → World → Prop)
    (placed : ∀ brokerOrderId, post
      (.ok (PaperBroker.receipt order.symbol order.side order.qty
        (slippedPrice round8 order.side order.price moment.slippage) brokerOrderId))
      (world.fill order (slippedPrice round8 order.side order.price moment.slippage)
        moment.utcMinute brokerOrderId)) :
    (PaperBroker.placeOrder round8 order.symbol order.side order.qty order.price).wp moment.during
      post world := by
  simp only [PaperBroker.placeOrder, Program.bind_eq_bind, Program.wp_bind, wp_tradesSubmitted,
    wp_redisSetnx, wp_uniform, wp_getCash, wp_getPosition, wp_redisSet, wp_utcNow, wp_uuid4,
    Program.andThen_ok, Program.pure_eq_ret, Program.wp_ret, World.writeOnce_writeOnce,
    World.writeOnce_write]
  intro brokerOrderId _
  simpa [World.fill] using placed brokerOrderId

theorem wp_recordOutcome (realizedPnl : ℚ) (post : Except Failure Unit → World → Prop)
    (pushed : ∀ after, after.db = world.db → after.seen = world.seen.push realizedPnl →
      post (.ok ()) after) :
    (recordOutcome realizedPnl).wp moment.during post world := by
  rw [recordOutcome]
  split
  · rename_i nonzero
    simp only [Program.bind_eq_bind, Program.wp_bind, Program.wp_attempt, wp_redisModify,
      Program.andThen_ok, Program.pure_eq_ret, Program.wp_ret]
    refine pushed _ rfl ?_
    rw [Seen.push, if_neg nonzero]
    ext1
    · exact World.book_congr (by simp) fun symbol => by simp
    · rfl
    · simp [World.seen]
    · rfl
  · rename_i zero
    exact pushed _ rfl (by rw [Seen.push, if_pos (not_not.mp zero)])

theorem wp_publishFillEvents (ctx : FillContext) (post : Except Failure Unit → World → Prop)
    (published : ∀ after, after.db = world.db →
      after.seen = world.seen.perform ctx.realizedPnl → post (.ok ()) after) :
    (publishFillEvents ctx).wp moment.during post world := by
  rw [publishFillEvents]
  simp only [Program.bind_eq_bind, Program.wp_bind, wp_publish, Program.andThen_ok]
  split
  all_goals
    simp only [wp_publish, Program.wp_bind, Program.andThen_ok]
    refine published _ rfl ?_
    ext1
    · rfl
    · rfl
    · rfl
    · simp [World.seen, Seen.perform, StreamEvent.performance, List.filterMap]

theorem wp_clearInFlight (post : Except Failure Unit → World → Prop) :
    clearInFlight.wp moment.during post world ↔ post (.ok ()) (world.erase .inFlightOrder) := by
  simp [clearInFlight, Program.wp_bind, Program.wp_attempt]

theorem wp_recordFillToStore (ctx : FillContext) (brokerOrderId : String)
    (post : Except Failure Unit → World → Prop)
    (recorded : ∀ after, after.db = world.db → after.seen = world.seen → post (.ok ()) after) :
    (recordFillToStore ctx brokerOrderId).wp moment.during post world := by
  simp only [recordFillToStore, Program.bind_eq_bind, Program.wp_bind, wp_runtimeStore,
    Program.andThen_ok]
  split
  all_goals
    simp only [wp_runtimeStore, wp_getPosition, Program.wp_bind, Program.andThen_ok]
    exact recorded _ (by dsimp only) (world.seen_runtime _)

theorem fillContext_realizedPnl (data : Decision) (order : Order) (prior : Position)
    (orderId : String) (qty fillPrice confidence : ℚ) (filledAt : String) (decisionCostUsd : ℚ) :
    (fillContext config data order prior orderId qty fillPrice confidence filledAt
      decisionCostUsd).realizedPnl =
        computeRealizedPnl config.round8 prior order.side qty fillPrice := by
  rw [fillContext]

/-- A fill is recorded unless the cost of its decision is no number. -/
theorem wp_recordFill (data : Decision) (order : Order) (prior : Position) (orderId : String)
    (qty : ℚ) (receipt : BrokerOrder) (post : Except Failure FillContext → World → Prop)
    (unpriced : data.decisionCostUsd.toFloatOrZero = none → post (.error .valueError) world)
    (recorded : ∀ cost, data.decisionCostUsd.toFloatOrZero = some cost → ∀ ctx after,
      ctx.realizedPnl = computeRealizedPnl config.round8 prior order.side qty receipt.fillPrice →
      after.seen = world.seen.perform ctx.realizedPnl → post (.ok ctx) after) :
    (recordFill config data order prior orderId qty receipt).wp moment.during post world := by
  simp only [recordFill, Program.bind_eq_bind, Program.wp_bind, wp_utcNow, Program.andThen_ok]
  cases cost : data.decisionCostUsd.toFloatOrZero with
  | none => exact unpriced cost
  | some value =>
      refine wp_recordFillToStore _ _ _ fun stored _ same => ?_
      rw [Program.andThen_ok]
      refine wp_publishFillEvents _ _ fun after _ performed => ?_
      exact recorded value cost _ after (fillContext_realizedPnl ..) (by rw [performed, same])

end Moment

end TradingControl
