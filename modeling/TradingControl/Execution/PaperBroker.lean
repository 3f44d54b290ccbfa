import TradingControl.Execution.World

/-!
# Awaiting one operation

The operations of the engine as programs, with the rule of each under a healthy Redis: database
statements may still fail, and the answers of clocks, flags and random draws are arbitrary.
-/

namespace TradingControl

open Effects Python

namespace Engine

def redisGet (key : Key) : Engine (Option key.Value) :=
  Program.perform (S := engineSignature) (.redis (.get key))

def redisSet (key : Key) (value : key.Value) : Engine Unit :=
  Program.perform (S := engineSignature) (.redis (.set key value))

def redisSetnx (key : Key) (value : key.Value) : Engine Bool :=
  Program.perform (S := engineSignature) (.redis (.setnx key value))

def redisDelete (key : Key) : Engine Unit :=
  Program.perform (S := engineSignature) (.redis (.delete key))

def redisModify (key : Key) (change : Option key.Value → key.Value) : Engine key.Value :=
  Program.perform (S := engineSignature) (.redis (.modify key change))

def database (session : Session) (statement : Statement) : Engine statement.Answer :=
  Program.perform (S := engineSignature) (.database session statement)

def isDbAvailable : Engine Bool := Program.perform (S := engineSignature) .isDbAvailable

def isSymbolOpen (symbol : String) : Engine Bool :=
  Program.perform (S := engineSignature) (.isSymbolOpen symbol)

def isWithinNoTradeWindow : Engine Bool :=
  Program.perform (S := engineSignature) .isWithinNoTradeWindow

def uniform : Engine Slippage := Program.perform (S := engineSignature) .uniform

def uuid4 : Engine String := Program.perform (S := engineSignature) .uuid4

def utcNow : Engine String := Program.perform (S := engineSignature) .utcNow

def tradesSubmitted (order : Submission) : Engine Unit :=
  Program.perform (S := engineSignature) (.tradesSubmitted order)

def publish (event : StreamEvent) : Engine Unit :=
  Program.perform (S := engineSignature) (.publish event)

def runtimeStore (change : RuntimeStore → RuntimeStore) : Engine Unit :=
  Program.perform (S := engineSignature) (.runtimeStore change)

/-! ## One delivery after another -/

/-- The sequential reading: database statements may fail, the answers of clocks, flags and random
draws are arbitrary, and Redis fails only where `faults` holds. -/
def sequential (faults : Prop) : Transformer engineSignature Failure World :=
  engineHandler.demonic fun choice => choice.redisFails = true → faults

variable {faults : Prop}

theorem sequential_monotone : Program.Monotone (sequential faults) := Handler.demonic_monotone _ _

section Rules

variable (world : World)

theorem sequential_redis (command : KeyValue.Command Key.Value)
    (post : Except Failure command.Answer → World → Prop) :
    sequential faults (.redis command) post world ↔
      (faults → post (.error .redisError) world) ∧
        post (.ok (command.answer world.redis))
          { world with redis := command.apply world.redis } := by
  constructor
  · intro holds
    constructor
    · intro faulty
      simpa [engineHandler] using holds { redisFails := true } fun _ => faulty
    · simpa [engineHandler] using holds {} (by simp)
  · rintro ⟨failed, answered⟩ choice permitted
    by_cases fails : choice.redisFails = true
    · simpa [engineHandler, fails] using failed (permitted fails)
    · simpa [engineHandler, fails] using answered

@[simp] theorem wp_redisGet (key : Key) (post : Except Failure (Option key.Value) → World → Prop) :
    Program.wp (α := no_index (Option key.Value)) (sequential faults) (redisGet key) post world ↔
      (faults → post (.error .redisError) world) ∧ post (.ok (world.redis key)) world := by
  rw [redisGet, Program.wp_perform]
  exact sequential_redis world (.get key) post

@[simp] theorem wp_redisSet (key : Key) (value : key.Value)
    (post : Except Failure Unit → World → Prop) :
    (redisSet key value).wp (sequential faults) post world ↔
      (faults → post (.error .redisError) world) ∧ post (.ok ()) (world.write key value) := by
  rw [redisSet, Program.wp_perform]
  exact sequential_redis world (.set key value) post

@[simp] theorem wp_redisSetnx (key : Key) (value : key.Value)
    (post : Except Failure Bool → World → Prop) :
    (redisSetnx key value).wp (sequential faults) post world ↔
      (faults → post (.error .redisError) world) ∧
        post (.ok (world.redis key).isNone) (world.writeOnce key value) := by
  rw [redisSetnx, Program.wp_perform]
  exact sequential_redis world (.setnx key value) post

@[simp] theorem wp_redisDelete (key : Key) (post : Except Failure Unit → World → Prop) :
    (redisDelete key).wp (sequential faults) post world ↔
      (faults → post (.error .redisError) world) ∧ post (.ok ()) (world.erase key) := by
  rw [redisDelete, Program.wp_perform]
  exact sequential_redis world (.delete key) post

@[simp] theorem wp_database (session : Session) (statement : Statement)
    (post : Except Failure statement.Answer → World → Prop) :
    Program.wp (α := no_index statement.Answer) (sequential faults) (database session statement)
        post world ↔
      post (.error .databaseError) world ∧
        post (statement.run session world.db).1
          { world with db := (statement.run session world.db).2 } := by
  rw [database, Program.wp_perform]
  constructor
  · intro holds
    exact ⟨by simpa [engineHandler] using holds { dbFails := true } (by simp),
      by simpa [engineHandler] using holds {} (by simp)⟩
  · rintro ⟨failed, answered⟩ choice -
    by_cases fails : choice.dbFails = true
    · simpa [engineHandler, fails] using failed
    · simpa [engineHandler, fails] using answered

theorem wp_commit (session : Session) (post : Except Failure Unit → World → Prop) :
    Program.wp (α := no_index Unit) (sequential faults) (database session .commit) post world ↔
      post (.error .databaseError) world ∧ post (.ok ()) (world.commit session) :=
  wp_database world session .commit post

@[simp] theorem wp_uniform (post : Except Failure Slippage → World → Prop) :
    uniform.wp (sequential faults) post world ↔ ∀ slippage, post (.ok slippage) world := by
  rw [uniform, Program.wp_perform]
  exact ⟨fun holds slippage => holds { slippage := slippage } (by simp),
    fun holds choice _ => holds _⟩

@[simp] theorem wp_uuid4 (post : Except Failure String → World → Prop) :
    uuid4.wp (sequential faults) post world ↔ ∀ uuid, post (.ok uuid) world := by
  rw [uuid4, Program.wp_perform]
  exact ⟨fun holds uuid => holds { uuid := uuid } (by simp), fun holds choice _ => holds _⟩

@[simp] theorem wp_utcNow (post : Except Failure String → World → Prop) :
    utcNow.wp (sequential faults) post world ↔ ∀ minute, post (.ok minute) world := by
  rw [utcNow, Program.wp_perform]
  exact ⟨fun holds minute => holds { utcMinute := minute } (by simp),
    fun holds choice _ => holds _⟩

@[simp] theorem wp_tradesSubmitted (order : Submission)
    (post : Except Failure Unit → World → Prop) :
    (tradesSubmitted order).wp (sequential faults) post world ↔
      post (.ok ()) (world.submit order) := by
  rw [tradesSubmitted, Program.wp_perform]
  exact ⟨fun holds => holds {} (by simp), fun holds choice _ => holds⟩

end Rules

end Engine

end TradingControl

/-!
# Paper broker

`PaperBroker` keeps cash and one position per symbol in Redis.  An order reads and writes them one
command at a time, and other deliveries may run between two commands.  `Book` is what the broker
holds, and `Book.fill` is what one undisturbed order does to it.
-/

namespace TradingControl

open Effects Python

/-! ## The book -/

/-- Cash and a position for every symbol. -/
@[ext] structure Book where
  cash : ℚ
  position : String → Position

/-- Holdings closer to zero than this count as flat. -/
def dust : ℚ := 1 / 10 ^ 9

/-- `1 if normalized_side in {BUY, LONG} else -1`. -/
def direction (side : String) : ℚ := if isBuy (lower side) then 1 else -1

/-- Price of a fill, with slippage as a fraction of the price. -/
def slippedPrice (round8 : ℚ → ℚ) (side : String) (price slippage : ℚ) : ℚ :=
  round8 (price * (1 + direction side * slippage))

/-- Cash after an order. -/
def settle (cash : ℚ) (side : String) (qty fillPrice : ℚ) : ℚ :=
  if 0 < direction side then cash - qty * fillPrice else cash + qty * fillPrice

/-- Position after an order.  The entry price is averaged on adds and kept on partial closes. -/
def Position.fill (prior : Position) (side : String) (qty fillPrice : ℚ) (now : String) :
    Position :=
  let newQty := prior.qty + qty * direction side
  let newSide := if 0 < newQty then "long" else "short"
  if |newQty| < dust then
    { side := "flat"
      qty := newQty
      entryPrice := 0
      currentPrice := fillPrice
      openedAt := none }
  else if |prior.qty| < dust ∨ prior.entryPrice ≤ 0 then
    { side := newSide
      qty := newQty
      entryPrice := fillPrice
      currentPrice := fillPrice
      openedAt := some now }
  else if 0 < prior.qty ↔ 0 < direction side then
    -- adding in the same direction
    { side := newSide
      qty := newQty
      entryPrice := (prior.entryPrice * |prior.qty| + fillPrice * qty) / |newQty|
      currentPrice := fillPrice
      openedAt := some (orDefault prior.openedAt now) }
  else if ¬(0 < prior.qty ↔ 0 < newQty) then
    -- flipped past zero
    { side := newSide
      qty := newQty
      entryPrice := fillPrice
      currentPrice := fillPrice
      openedAt := some now }
  else
    -- partial close
    { side := newSide
      qty := newQty
      entryPrice := prior.entryPrice
      currentPrice := fillPrice
      openedAt := some (orDefault prior.openedAt now) }

/-- Book after one undisturbed order. -/
def Book.fill (book : Book) (symbol side : String) (qty fillPrice : ℚ) (now : String) : Book where
  cash := settle book.cash side qty fillPrice
  position := Function.update book.position symbol ((book.position symbol).fill side qty fillPrice now)

@[simp] theorem Position.fill_qty (prior : Position) (side : String) (qty fillPrice : ℚ)
    (now : String) : (prior.fill side qty fillPrice now).qty = prior.qty + qty * direction side := by
  unfold Position.fill
  simp only
  split_ifs <;> rfl

@[simp] theorem Position.fill_currentPrice (prior : Position) (side : String) (qty fillPrice : ℚ)
    (now : String) : (prior.fill side qty fillPrice now).currentPrice = fillPrice := by
  unfold Position.fill
  simp only
  split_ifs <;> rfl

@[simp] theorem Book.fill_cash (book : Book) (symbol side : String) (qty fillPrice : ℚ)
    (now : String) :
    (book.fill symbol side qty fillPrice now).cash = settle book.cash side qty fillPrice := rfl

@[simp] theorem Book.fill_position_self (book : Book) (symbol side : String) (qty fillPrice : ℚ)
    (now : String) :
    (book.fill symbol side qty fillPrice now).position symbol =
      (book.position symbol).fill side qty fillPrice now :=
  Function.update_self ..

theorem Book.fill_position_other (book : Book) {symbol other : String} (different : other ≠ symbol)
    (side : String) (qty fillPrice : ℚ) (now : String) :
    (book.fill symbol side qty fillPrice now).position other = book.position other :=
  Function.update_of_ne different ..

/-- A payload whose side an order recognises has that order's direction. -/
theorem direction_of_isBuy {side : String} (buy : isBuy side = true) : direction side = 1 := by
  simp only [isBuy, Bool.or_eq_true, decide_eq_true_eq] at buy
  rcases buy with rfl | rfl <;> decide +kernel

theorem direction_of_isSell {side : String} (sell : isSell side = true) : direction side = -1 := by
  simp only [isSell, Bool.or_eq_true, decide_eq_true_eq] at sell
  rcases sell with rfl | rfl <;> decide +kernel

theorem direction_eq (side : String) : direction side = 1 ∨ direction side = -1 := by
  rw [direction]
  split
  · exact Or.inl rfl
  · exact Or.inr rfl

/-! ## The broker's calls -/

namespace PaperBroker

open Engine

/-- `get_position`. -/
def getPosition (symbol : String) : Engine Position := do
  let raw ← redisGet (.paperPosition symbol)
  return raw.getD flatPosition

/-- `get_cash`. -/
def getCash : Engine ℚ := do
  let _ ← redisSetnx .paperCash defaultPaperCash
  let raw ← redisGet .paperCash
  return raw.getD defaultPaperCash

def receipt (symbol side : String) (qty fillPrice : ℚ) (brokerOrderId : String) : BrokerOrder where
  brokerOrderId := brokerOrderId
  symbol := symbol
  side := lower side
  filledQty := qty
  fillPrice := fillPrice
  status := "filled"

/-- `place_order`. -/
def placeOrder (round8 : ℚ → ℚ) (symbol side : String) (qty price : ℚ) : Engine BrokerOrder := do
  tradesSubmitted { symbol := symbol, side := side, qty := qty, price := price }
  let _ ← redisSetnx .paperCash defaultPaperCash
  let slippage ← uniform
  let fillPrice := slippedPrice round8 side price slippage
  let cash ← getCash
  redisSet .paperCash (settle cash side qty fillPrice)
  let current ← getPosition symbol
  let now ← utcNow
  redisSet (.paperPosition symbol) (current.fill side qty fillPrice now)
  let brokerOrderId ← uuid4
  redisSet (.paperOrder brokerOrderId) (receipt symbol side qty fillPrice brokerOrderId)
  return receipt symbol side qty fillPrice brokerOrderId

end PaperBroker

/-! ## An undisturbed call -/

/-- What the broker holds in a world; the cash key is initialised on first use. -/
def World.book (world : World) : Book where
  cash := (world.redis .paperCash).getD defaultPaperCash
  position symbol := (world.redis (.paperPosition symbol)).getD flatPosition

def World.fill (world : World) (order : Submission) (fillPrice : ℚ) (now brokerOrderId : String) :
    World :=
  (((world.submit order).write .paperCash
      (settle world.book.cash order.side order.qty fillPrice)).write (.paperPosition order.symbol)
      ((world.book.position order.symbol).fill order.side order.qty fillPrice now)).write
    (.paperOrder brokerOrderId)
    (PaperBroker.receipt order.symbol order.side order.qty fillPrice brokerOrderId)

namespace World

variable (world : World)

@[simp] theorem book_submit (order : Submission) : (world.submit order).book = world.book := rfl

@[simp] theorem book_writeCash (cash : ℚ) :
    (world.write .paperCash cash).book = { world.book with cash := cash } := by
  ext symbol <;> simp [book]

@[simp] theorem book_writePosition (symbol : String) (position : Position) :
    (world.write (.paperPosition symbol) position).book =
      { world.book with position := Function.update world.book.position symbol position } := by
  ext other
  · simp [book]
  · by_cases same : other = symbol
    · subst same
      simp [book]
    · simp [book, same]

/-- The first use of the cash key initialises it. -/
theorem writeOnce_cash :
    (world.writeOnce .paperCash defaultPaperCash).redis .paperCash = some world.book.cash := by
  cases held : world.redis .paperCash with
  | none => simp [writeOnce_of_none _ _ held, book, held]
  | some cash => simp [writeOnce_of_some _ held, book, held]

@[simp] theorem book_writeOnceCash :
    (world.writeOnce .paperCash defaultPaperCash).book = world.book := by
  ext symbol
  · simp [book, writeOnce_cash]
  · simp [book]

/-- Keys outside the book do not show in it. -/
theorem book_congr {before after : World} (cash : after.redis .paperCash = before.redis .paperCash)
    (position : ∀ symbol, after.redis (.paperPosition symbol) = before.redis (.paperPosition symbol)) :
    after.book = before.book := by
  ext symbol
  · rw [book, book, cash]
  · simp only [book, position]

/-- An undisturbed order refines `Book.fill`. -/
theorem book_fill (order : Submission) (fillPrice : ℚ) (now brokerOrderId : String) :
    (world.fill order fillPrice now brokerOrderId).book =
      world.book.fill order.symbol order.side order.qty fillPrice now := by
  have receipts : (world.fill order fillPrice now brokerOrderId).book =
      (((world.submit order).write .paperCash
        (settle world.book.cash order.side order.qty fillPrice)).write (.paperPosition order.symbol)
        ((world.book.position order.symbol).fill order.side order.qty fillPrice now)).book := by
    apply book_congr
    · simp [fill]
    · simp [fill]
  rw [receipts]
  simp [Book.fill]

end World

namespace PaperBroker

open Engine

variable {faults : Prop}

@[simp] theorem wp_getPosition (symbol : String) (world : World)
    (post : Except Failure Position → World → Prop) :
    (getPosition symbol).wp (sequential faults) post world ↔
      (faults → post (.error .redisError) world) ∧
        post (.ok (world.book.position symbol)) world := by
  simp [getPosition, Program.wp_bind, World.book]

theorem wp_getCash (world : World) (post : Except Failure ℚ → World → Prop) :
    getCash.wp (sequential faults) post world ↔
      (faults → post (.error .redisError) world ∧
        post (.error .redisError) (world.writeOnce .paperCash defaultPaperCash)) ∧
        post (.ok world.book.cash) (world.writeOnce .paperCash defaultPaperCash) := by
  simp only [getCash, Program.bind_eq_bind, Program.wp_bind, wp_redisSetnx, wp_redisGet,
    Program.andThen_ok, Program.andThen_error, World.writeOnce_cash, Program.pure_eq_ret,
    Program.wp_ret, Option.getD_some]
  tauto

/-- A broker call that Redis interrupts: the position is written whole or not at all. -/
structure Interrupted (order : Submission) (before after : World) : Prop where
  db : after.db = before.db
  orderLock : ∀ symbol, after.redis (.orderLock symbol) = before.redis (.orderLock symbol)
  orderDedup : ∀ key, after.redis (.orderDedup key) = before.redis (.orderDedup key)
  position : after.book.position = before.book.position ∨ ∃ fillPrice now,
    after.book.position =
      (before.book.fill order.symbol order.side order.qty fillPrice now).position

/-- An order is either placed undisturbed or interrupted by Redis. -/
theorem wp_placeOrder (round8 : ℚ → ℚ) (order : Submission) (world : World)
    (post : Except Failure BrokerOrder → World → Prop)
    (interrupted : faults → ∀ after, Interrupted order world after →
      post (.error .redisError) after)
    (placed : ∀ (slippage : Slippage) (now brokerOrderId : String),
      post (.ok (receipt order.symbol order.side order.qty
          (slippedPrice round8 order.side order.price slippage) brokerOrderId))
        (world.fill order (slippedPrice round8 order.side order.price slippage) now
          brokerOrderId)) :
    (placeOrder round8 order.symbol order.side order.qty order.price).wp (sequential faults) post
      world := by
  simp only [placeOrder, Program.bind_eq_bind, Program.wp_bind, wp_tradesSubmitted, wp_redisSetnx,
    wp_uniform, wp_getCash, wp_redisSet, wp_getPosition, wp_utcNow, wp_uuid4, Program.andThen_ok,
    Program.andThen_error, Program.pure_eq_ret, Program.wp_ret, World.writeOnce_write]
  refine ⟨fun faulty => interrupted faulty _ ?_, fun slippage =>
    ⟨fun faulty => ⟨interrupted faulty _ ?_, interrupted faulty _ ?_⟩,
      fun faulty => interrupted faulty _ ?_, fun faulty => interrupted faulty _ ?_, fun now =>
        ⟨fun faulty => interrupted faulty _ ?_, fun brokerOrderId =>
          ⟨fun faulty => interrupted faulty _ ?_, ?_⟩⟩⟩⟩
  case refine_8 =>
    simpa [World.fill] using placed slippage now brokerOrderId
  case refine_7 =>
    -- the position is written, the receipt is not
    refine ⟨by simp, by simp, by simp,
      Or.inr ⟨slippedPrice round8 order.side order.price slippage, now, ?_⟩⟩
    simp [Book.fill]
  all_goals exact ⟨by simp, by simp, by simp, Or.inl (by simp)⟩

end PaperBroker

end TradingControl
