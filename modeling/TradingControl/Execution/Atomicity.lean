import TradingControl.Execution.PaperBroker
import TradingControl.Python.Reference

/-!
# Orders and Redis failures

`place_order` makes seven Redis calls, one after another.  Up to the one that writes the cash an
order leaves the book alone; from there on a failing call leaves half an order behind.
-/

namespace TradingControl

open Effects Python

/-! ## Executing one operation -/

namespace Engine

variable {α : Type} (choices : ℕ → Choice) (world : World)

theorem exec_redis_bind (command : KeyValue.Command Key.Value)
    (rest : command.Answer → Engine α) :
    ((Program.perform (S := engineSignature) (.redis command)).bind rest).exec engineHandler choices
        world =
      if (choices 0).redisFails then (.error .redisError, world)
      else
        (rest (command.answer world.redis)).exec engineHandler (fun n => choices (n + 1))
          { world with redis := command.apply world.redis } := by
  rw [Program.exec_perform_bind]
  cases fails : (choices 0).redisFails with
  | true => simp only [engineHandler, fails, if_true]
  | false => simp only [engineHandler, fails, Bool.false_eq_true, if_false]

theorem exec_redisGet_bind (key : Key) (rest : Option key.Value → Engine α) :
    Program.exec engineHandler (Program.bind (α := no_index (Option key.Value)) (redisGet key) rest)
        choices world =
      if (choices 0).redisFails then (.error .redisError, world)
      else (rest (world.redis key)).exec engineHandler (fun n => choices (n + 1)) world :=
  exec_redis_bind choices world (.get key) rest

theorem exec_redisSet_bind (key : Key) (value : key.Value) (rest : Unit → Engine α) :
    ((redisSet key value).bind rest).exec engineHandler choices world =
      if (choices 0).redisFails then (.error .redisError, world)
      else (rest ()).exec engineHandler (fun n => choices (n + 1)) (world.write key value) :=
  exec_redis_bind choices world (.set key value) rest

theorem exec_redisSetnx_bind (key : Key) (value : key.Value) (rest : Bool → Engine α) :
    ((redisSetnx key value).bind rest).exec engineHandler choices world =
      if (choices 0).redisFails then (.error .redisError, world)
      else
        (rest (world.redis key).isNone).exec engineHandler (fun n => choices (n + 1))
          (world.writeOnce key value) :=
  exec_redis_bind choices world (.setnx key value) rest

theorem exec_tradesSubmitted_bind (order : Submission) (rest : Unit → Engine α) :
    ((tradesSubmitted order).bind rest).exec engineHandler choices world =
      (rest ()).exec engineHandler (fun n => choices (n + 1)) (world.submit order) :=
  Program.exec_perform_bind ..

theorem exec_uniform_bind (rest : Slippage → Engine α) :
    (uniform.bind rest).exec engineHandler choices world =
      (rest (choices 0).slippage).exec engineHandler (fun n => choices (n + 1)) world :=
  Program.exec_perform_bind ..

theorem exec_utcNow_bind (rest : String → Engine α) :
    (utcNow.bind rest).exec engineHandler choices world =
      (rest (choices 0).utcMinute).exec engineHandler (fun n => choices (n + 1)) world :=
  Program.exec_perform_bind ..

theorem exec_uuid4_bind (rest : String → Engine α) :
    (uuid4.bind rest).exec engineHandler choices world =
      (rest (choices 0).uuid).exec engineHandler (fun n => choices (n + 1)) world :=
  Program.exec_perform_bind ..

end Engine

/-! ## Which call fails -/

namespace PaperBroker

open Engine

/-- Redis calls of an order. -/
inductive Call where
  | initialiseCash
  | checkCash
  | readCash
  | writeCash
  | readPosition
  | writePosition
  | writeOrder
deriving DecidableEq

namespace Call

/-- The calls in the order `place_order` makes them. -/
def all : List Call :=
  [.initialiseCash, .checkCash, .readCash, .writeCash, .readPosition, .writePosition, .writeOrder]

/-- Place of a call among the operations of an order. -/
def index : Call → ℕ
  | .initialiseCash => 1
  | .checkCash => 3
  | .readCash => 4
  | .writeCash => 5
  | .readPosition => 6
  | .writePosition => 8
  | .writeOrder => 10

/-- Nothing the broker holds has been written when the call is made. -/
def beforeCash : Call → Bool
  | .initialiseCash | .checkCash | .readCash | .writeCash => true
  | .readPosition | .writePosition | .writeOrder => false

end Call

def raising (choices : ℕ → Choice) : Option Call :=
  Call.all.find? fun call => (choices call.index).redisFails

def reached (world : World) (order : Submission) (fillPrice : ℚ) (now : String) : Call → World
  | .initialiseCash => world.submit order
  | .checkCash | .readCash | .writeCash =>
      (world.submit order).writeOnce .paperCash defaultPaperCash
  | .readPosition | .writePosition =>
      (world.submit order).write .paperCash (settle world.book.cash order.side order.qty fillPrice)
  | .writeOrder =>
      ((world.submit order).write .paperCash
        (settle world.book.cash order.side order.qty fillPrice)).write (.paperPosition order.symbol)
        ((world.book.position order.symbol).fill order.side order.qty fillPrice now)

/-- Price of the fill under the random draw. -/
def filledAt (round8 : ℚ → ℚ) (order : Submission) (choices : ℕ → Choice) : ℚ :=
  slippedPrice round8 order.side order.price (choices 2).slippage

/-- Outcome of an order: filled, or cut off at the first call that raises. -/
theorem exec_placeOrder (round8 : ℚ → ℚ) (order : Submission) (world : World)
    (choices : ℕ → Choice) :
    (placeOrder round8 order.symbol order.side order.qty order.price).exec engineHandler choices
        world =
      match raising choices with
      | some call =>
          (.error .redisError,
            reached world order (filledAt round8 order choices) (choices 7).utcMinute call)
      | none =>
          (.ok (receipt order.symbol order.side order.qty (filledAt round8 order choices)
              (choices 9).uuid),
            world.fill order (filledAt round8 order choices) (choices 7).utcMinute
              (choices 9).uuid) := by
  simp only [placeOrder, getCash, getPosition, Program.bind_eq_bind, Program.bind_assoc,
    exec_tradesSubmitted_bind, exec_redisSetnx_bind, exec_uniform_bind, exec_redisGet_bind,
    exec_redisSet_bind, exec_utcNow_bind, exec_uuid4_bind, Program.pure_eq_ret, Program.ret_bind,
    Program.exec, Nat.zero_add, Nat.reduceAdd, World.writeOnce_writeOnce, World.writeOnce_write]
  have cash : (((world.submit order).writeOnce .paperCash defaultPaperCash).redis
      .paperCash).getD defaultPaperCash = world.book.cash := by
    rw [World.writeOnce_cash, Option.getD_some, World.book_submit]
  rw [raising, Call.all]
  simp only [List.find?_cons, Call.index]
  cases (choices 1).redisFails with
  | true => rfl
  | false =>
  cases (choices 3).redisFails with
  | true => rfl
  | false =>
  cases (choices 4).redisFails with
  | true => rfl
  | false =>
  cases (choices 5).redisFails with
  | true => rfl
  | false =>
  rw [cash]
  cases (choices 6).redisFails with
  | true => rfl
  | false =>
  cases (choices 8).redisFails with
  | true => rfl
  | false =>
  cases (choices 10).redisFails with
  | true => rfl
  | false => rfl

/-! ## What a failing call leaves behind -/

/-- An order that raises has moved neither cash nor a position. -/
def Atomic (before : World) (outcome : Except Failure BrokerOrder × World) : Prop :=
  ∀ raised, outcome.1 = .error raised → outcome.2.book = before.book

theorem settle_eq_iff {cash qty fillPrice : ℚ} {side : String} (positive : 0 < qty) :
    settle cash side qty fillPrice = cash ↔ fillPrice = 0 := by
  rw [settle]
  constructor
  · intro kept
    have nothing : qty * fillPrice = 0 := by
      split_ifs at kept <;> linarith
    exact (mul_eq_zero.mp nothing).resolve_left positive.ne'
  · rintro rfl
    split_ifs <;> ring

theorem Position.fill_ne (prior : Position) (side : String) {qty : ℚ} (fillPrice : ℚ) (now : String)
    (positive : 0 < qty) : prior.fill side qty fillPrice now ≠ prior := by
  intro kept
  have quantity := congrArg Position.qty kept
  rw [Position.fill_qty] at quantity
  rcases direction_eq side with up | down
  · rw [up] at quantity
    linarith
  · rw [down] at quantity
    linarith

theorem cash_moved (world : World) (order : Submission) (fillPrice : ℚ)
    (positive : 0 < order.qty) :
    ({ world.book with cash := settle world.book.cash order.side order.qty fillPrice } : Book) =
      world.book ↔ fillPrice = 0 := by
  rw [Book.ext_iff, settle_eq_iff positive]
  exact and_iff_left rfl

/-- Before its cash is written an order leaves the book alone; between the cash and the position
only the cash has moved; then the position has moved as well. -/
theorem book_reached (world : World) (order : Submission) (fillPrice : ℚ) (now : String)
    (positive : 0 < order.qty) (call : Call) :
    (reached world order fillPrice now call).book = world.book ↔
      call.beforeCash = true ∨ fillPrice = 0 ∧ call ≠ .writeOrder := by
  cases call with
  | initialiseCash => simp [reached, Call.beforeCash]
  | checkCash => simp [reached, Call.beforeCash]
  | readCash => simp [reached, Call.beforeCash]
  | writeCash => simp [reached, Call.beforeCash]
  | readPosition =>
      have moved := cash_moved world order fillPrice positive
      simpa [reached, Call.beforeCash] using moved
  | writePosition =>
      have moved := cash_moved world order fillPrice positive
      simpa [reached, Call.beforeCash] using moved
  | writeOrder =>
      have held : (reached world order fillPrice now .writeOrder).book.position order.symbol =
          (world.book.position order.symbol).fill order.side order.qty fillPrice now := by
        simp [reached]
      have moved : (reached world order fillPrice now .writeOrder).book ≠ world.book := by
        intro kept
        rw [kept] at held
        exact Position.fill_ne _ _ _ _ positive held.symm
      simp [Call.beforeCash, moved]

/-- Redis fails at the read of the position. -/
def failAfterCash (n : ℕ) : Choice where
  redisFails := n = Call.readPosition.index

/-- A broker nobody has traded with. -/
def freshWorld : World where
  redis _ := none

end PaperBroker

end TradingControl
