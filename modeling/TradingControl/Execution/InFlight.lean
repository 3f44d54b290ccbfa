import TradingControl.Effects.Observed
import TradingControl.Execution.Quiet

/-!
# The in-flight flag

An order raises one flag for all symbols before it goes to the broker, and the paths that record its
fill push the outcome and lower the flag.  An observer follows the flag through a run; here are its
rules for the operations of the engine, under a healthy Redis with a broker that may fail.
-/

namespace TradingControl

open Effects Python Engine

/-! ## Failures -/

/-- The environment lets an operation fail. -/
def EngineOp.fails : EngineOp → Choice → Bool
  | .redis _, choice => choice.redisFails
  | .database _ _, choice => choice.dbFails
  | _, _ => false

def Key.Broker : Key → Prop
  | .paperCash | .paperPosition _ | .paperOrder _ => True
  | _ => False

namespace InFlight

/-! ## Following the flag -/

/-- How far the order of a run has come. -/
inductive Flight where
  /-- The flag has not been raised. -/
  | grounded
  /-- The flag is raised, and nothing has failed since. -/
  | inFlight
  /-- The fill has been committed. -/
  | landed
  /-- A call to the broker or a statement failed with the order in flight. -/
  | lost
deriving DecidableEq

namespace Flight

/-- A failing operation. -/
def fail : Flight → Flight
  | .inFlight => .lost
  | flight => flight

/-- The flag goes up. -/
def raise : Flight → Flight
  | .grounded => .inFlight
  | flight => flight

/-- The transaction commits. -/
def commit : Flight → Flight
  | .inFlight => .landed
  | flight => flight

/-- An operation that succeeds. -/
def pass (flight : Flight) : EngineOp → Flight
  | .redis (.set .inFlightOrder _) => flight.raise
  | .database _ .commit => flight.commit
  | _ => flight

def observe : Observer engineSignature Choice Flight := fun flight op choice =>
  if op.fails choice then flight.fail else flight.pass op

@[simp] theorem fail_fail (flight : Flight) : flight.fail.fail = flight.fail := by
  cases flight <;> rfl

end Flight

def Healthy : EngineOp → Choice → Prop
  | .redis command, choice => choice.redisFails = true → command.key.Broker
  | _, _ => True

/-- Observed runs under a healthy Redis. -/
abbrev observed : Transformer engineSignature Failure (World × Flight) :=
  engineHandler.observed Flight.observe Healthy

theorem observed_monotone : Program.Monotone observed :=
  Handler.observed_monotone engineHandler Flight.observe Healthy

/-! ## What a run has to leave behind -/

def pushOutcome (realizedPnl : ℚ) (outcomes : Option (List ℚ)) : Option (List ℚ) :=
  some ((realizedPnl :: outcomes.getD []).take recentOutcomesMaxlen)

/-- A fill with a nonzero realized PnL has pushed it once. -/
def OutcomePushed (config : Config) (before after : World) : Prop :=
  ∀ (order : Submission) (fillPrice : ℚ) (now : String),
    after.submitted = before.submitted ++ [order] →
    after.book = before.book.fill order.symbol order.side order.qty fillPrice now →
    computeRealizedPnl config.round8 (before.book.position order.symbol) order.side order.qty
      fillPrice ≠ 0 →
    after.redis .recentOutcomes =
      pushOutcome (computeRealizedPnl config.round8 (before.book.position order.symbol) order.side
        order.qty fillPrice) (before.redis .recentOutcomes)

/-- A flag raised in the run has been lowered. -/
def FlagLowered (flight : Flight) (after : World) : Prop :=
  flight ≠ .grounded → after.redis .inFlightOrder = none

/-! ## Rules -/

section Rules

variable (world : World) (flight : Flight)

theorem observed_redis (command : KeyValue.Command Key.Value)
    (post : Except Failure command.Answer → World × Flight → Prop) :
    observed (.redis command) post (world, flight) ↔
      (command.key.Broker → post (.error .redisError) (world, flight.fail)) ∧
        post (.ok (command.answer world.redis))
          ({ world with redis := command.apply world.redis }, flight.pass (.redis command)) := by
  constructor
  · intro holds
    constructor
    · intro broker
      simpa [engineHandler, Flight.observe, EngineOp.fails] using
        holds { redisFails := true } fun _ => broker
    · simpa [engineHandler, Flight.observe, EngineOp.fails] using
        holds {} (by simp [Healthy])
  · rintro ⟨failed, answered⟩ choice healthy
    by_cases fails : choice.redisFails = true
    · simpa [engineHandler, Flight.observe, EngineOp.fails, fails] using failed (healthy fails)
    · simpa [engineHandler, Flight.observe, EngineOp.fails, fails] using answered

theorem observed_redisGet (key : Key)
    (post : Except Failure (Option key.Value) → World × Flight → Prop) :
    Program.wp (α := no_index (Option key.Value)) observed (redisGet key) post (world, flight) ↔
      (key.Broker → post (.error .redisError) (world, flight.fail)) ∧
        post (.ok (world.redis key)) (world, flight) := by
  rw [redisGet, Program.wp_perform, observed_redis]
  rfl

theorem observed_redisSet (key : Key) (value : key.Value) (other : key ≠ .inFlightOrder)
    (post : Except Failure Unit → World × Flight → Prop) :
    (redisSet key value).wp observed post (world, flight) ↔
      (key.Broker → post (.error .redisError) (world, flight.fail)) ∧
        post (.ok ()) (world.write key value, flight) := by
  have passed : flight.pass (.redis (.set key value)) = flight := by
    cases key with
    | inFlightOrder => exact absurd rfl other
    | _ => rfl
  rw [redisSet, Program.wp_perform, observed_redis, passed]
  rfl

/-- A healthy Redis takes the flag. -/
theorem observed_setInFlight (value : String) (post : Except Failure Unit → World × Flight → Prop) :
    (redisSet .inFlightOrder value).wp observed post (world, .grounded) ↔
      post (.ok ()) (world.write .inFlightOrder value, .inFlight) := by
  rw [redisSet, Program.wp_perform, observed_redis]
  exact and_iff_right fun broker => broker.elim

theorem observed_redisSetnx (key : Key) (value : key.Value)
    (post : Except Failure Bool → World × Flight → Prop) :
    (redisSetnx key value).wp observed post (world, flight) ↔
      (key.Broker → post (.error .redisError) (world, flight.fail)) ∧
        post (.ok (world.redis key).isNone) (world.writeOnce key value, flight) := by
  rw [redisSetnx, Program.wp_perform, observed_redis]
  rfl

theorem observed_redisDelete (key : Key) (post : Except Failure Unit → World × Flight → Prop) :
    (redisDelete key).wp observed post (world, flight) ↔
      (key.Broker → post (.error .redisError) (world, flight.fail)) ∧
        post (.ok ()) (world.erase key, flight) := by
  rw [redisDelete, Program.wp_perform, observed_redis]
  rfl

theorem observed_redisModify (key : Key) (change : Option key.Value → key.Value)
    (post : Except Failure key.Value → World × Flight → Prop) :
    Program.wp (α := no_index key.Value) observed (redisModify key change) post (world, flight) ↔
      (key.Broker → post (.error .redisError) (world, flight.fail)) ∧
        post (.ok (change (world.redis key)))
          (world.write key (change (world.redis key)), flight) := by
  rw [redisModify, Program.wp_perform, observed_redis]
  rfl

theorem observed_database (session : Session) (statement : Statement)
    (post : Except Failure statement.Answer → World × Flight → Prop) :
    Program.wp (α := no_index statement.Answer) observed (database session statement) post
        (world, flight) ↔
      post (.error .databaseError) (world, flight.fail) ∧
        post (statement.run session world.db).1
          ({ world with db := (statement.run session world.db).2 },
            flight.pass (.database session statement)) := by
  rw [database, Program.wp_perform]
  constructor
  · intro holds
    constructor
    · simpa [engineHandler, Flight.observe, EngineOp.fails] using
        holds { dbFails := true } trivial
    · simpa [engineHandler, Flight.observe, EngineOp.fails] using holds {} trivial
  · rintro ⟨failed, answered⟩ choice -
    by_cases fails : choice.dbFails = true
    · simpa [engineHandler, Flight.observe, EngineOp.fails, fails] using failed
    · simpa [engineHandler, Flight.observe, EngineOp.fails, fails] using answered

theorem observed_uniform (post : Except Failure Slippage → World × Flight → Prop) :
    uniform.wp observed post (world, flight) ↔
      ∀ slippage, post (.ok slippage) (world, flight) := by
  rw [uniform, Program.wp_perform]
  exact ⟨fun holds slippage => holds { slippage := slippage } trivial,
    fun holds choice _ => holds choice.slippage⟩

theorem observed_uuid4 (post : Except Failure String → World × Flight → Prop) :
    uuid4.wp observed post (world, flight) ↔ ∀ uuid, post (.ok uuid) (world, flight) := by
  rw [uuid4, Program.wp_perform]
  exact ⟨fun holds uuid => holds { uuid := uuid } trivial, fun holds choice _ => holds choice.uuid⟩

theorem observed_utcNow (post : Except Failure String → World × Flight → Prop) :
    utcNow.wp observed post (world, flight) ↔ ∀ minute, post (.ok minute) (world, flight) := by
  rw [utcNow, Program.wp_perform]
  exact ⟨fun holds minute => holds { utcMinute := minute } trivial,
    fun holds choice _ => holds choice.utcMinute⟩

theorem observed_tradesSubmitted (order : Submission)
    (post : Except Failure Unit → World × Flight → Prop) :
    (tradesSubmitted order).wp observed post (world, flight) ↔
      post (.ok ()) (world.submit order, flight) := by
  rw [tradesSubmitted, Program.wp_perform]
  exact ⟨fun holds => holds {} trivial, fun holds _ _ => holds⟩

theorem pass_of_mild {op : EngineOp} (mild : op.Mild) : flight.pass op = flight := by
  cases op with
  | redis command =>
      cases command with
      | set key value => exact mild.elim
      | _ => rfl
  | database session statement =>
      cases statement with
      | commit => exact mild.elim
      | _ => rfl
  | _ => rfl

theorem observe_of_mild {op : EngineOp} (mild : op.Mild) (choice : Choice) :
    Flight.observe flight op choice = flight ∨ Flight.observe flight op choice = flight.fail := by
  rw [Flight.observe]
  split_ifs
  · exact Or.inr rfl
  · exact Or.inl (pass_of_mild flight mild)

end Rules

/-! ## What the bookkeeping of an order touches -/

/-- Two worlds that agree in the book, the orders handed to the broker, the flag and the
outcomes. -/
structure Kept (before after : World) : Prop where
  book : after.book = before.book
  submitted : after.submitted = before.submitted
  flag : after.redis .inFlightOrder = before.redis .inFlightOrder
  outcomes : after.redis .recentOutcomes = before.redis .recentOutcomes

namespace Kept

theorem refl (world : World) : Kept world world := ⟨rfl, rfl, rfl, rfl⟩

theorem trans {before middle after : World} (first : Kept before middle)
    (second : Kept middle after) : Kept before after where
  book := second.book.trans first.book
  submitted := second.submitted.trans first.submitted
  flag := second.flag.trans first.flag
  outcomes := second.outcomes.trans first.outcomes

theorem of_guard (world : World) (command : KeyValue.Command Key.Value)
    (guard : ∃ symbol, command.key = .orderLock symbol ∨ command.key = .orderDedup symbol) :
    Kept world { world with redis := command.apply world.redis } := by
  obtain ⟨symbol, guard⟩ := guard
  have kept : ∀ other : Key, (∀ name, other ≠ .orderLock name ∧ other ≠ .orderDedup name) →
      command.apply world.redis other = world.redis other := by
    intro other apart
    apply command.apply_other
    rintro rfl
    rcases guard with lock | dedup
    · exact (apart symbol).1 lock
    · exact (apart symbol).2 dedup
  exact
    { book := World.book_congr (kept _ (by simp)) fun symbol => kept _ (by simp)
      submitted := rfl
      flag := kept _ (by simp)
      outcomes := kept _ (by simp) }

end Kept

/-- A mild operation writes no key but the cash. -/
theorem redis_of_mild {op : EngineOp} (mild : op.Mild) (choice : Choice) (world : World) {key : Key}
    (other : key ≠ .paperCash) : (engineHandler op choice world).2.redis key = world.redis key := by
  cases op with
  | redis command =>
      by_cases fails : choice.redisFails = true
      · simp [engineHandler, fails]
      · simp only [engineHandler, fails]
        cases command with
        | get _ => rfl
        | setnx held value =>
            cases held with
            | paperCash =>
                exact KeyValue.Command.apply_other (ν := Key.Value) (.setnx .paperCash value)
                  world.redis other
            | _ => exact mild.elim
        | _ => exact mild.elim
  | database session statement =>
      by_cases fails : choice.dbFails = true
      · simp [engineHandler, fails]
      · simp [engineHandler, fails]
  | publish event =>
      by_cases fails : choice.redisFails = true
      · simp [engineHandler, fails]
      · simp [engineHandler, fails]
  | _ => rfl

theorem kept_of_mild {op : EngineOp} (mild : op.Mild) (choice : Choice) (world : World) :
    Kept world (engineHandler op choice world).2 where
  book := (steady_of_quiet mild.quiet choice world).book
  submitted := (steady_of_quiet mild.quiet choice world).submitted
  flag := redis_of_mild mild choice world (by simp)
  outcomes := redis_of_mild mild choice world (by simp)

section Mild

variable {α β : Type}

/-- A mild program keeps all of it; the order may be lost meanwhile. -/
theorem wp_of_mild {program : Engine α} (mild : program.Mild)
    {post : Except Failure α → World × Flight → Prop} {origin world : World} {flight : Flight}
    (start : Kept origin world)
    (finish : ∀ outcome after flight', Kept origin after →
      (flight' = flight ∨ flight' = flight.fail) → post outcome (after, flight')) :
    program.wp observed post (world, flight) := by
  let frame : World × Flight → Prop := fun state =>
    Kept origin state.1 ∧ (state.2 = flight ∨ state.2 = flight.fail)
  have framed : frame (world, flight) := ⟨start, Or.inl rfl⟩
  refine Program.wp_of_calls ?_ mild framed
    fun outcome state framed => finish outcome state.1 state.2 framed.1 framed.2
  rintro op calm post' ⟨before, reached⟩ ⟨kept, flights⟩ continue_ choice -
  refine continue_ _ _ ⟨kept.trans (kept_of_mild calm choice before), ?_⟩
  dsimp only at flights ⊢
  rcases observe_of_mild reached calm choice with stays | fails
  · rw [stays]
    exact flights
  · rw [fails]
    rcases flights with rfl | rfl
    · exact Or.inr rfl
    · exact Or.inr (Flight.fail_fail flight)

/-- With no order in flight a mild program changes nothing. -/
theorem wp_of_mild_still {program : Engine α} (mild : program.Mild)
    {post : Except Failure α → World × Flight → Prop} {origin world : World} {flight : Flight}
    (still : flight.fail = flight) (start : Kept origin world)
    (finish : ∀ outcome after, Kept origin after → post outcome (after, flight)) :
    program.wp observed post (world, flight) := by
  refine wp_of_mild mild start fun outcome after flight' kept flights => ?_
  rw [still, or_self] at flights
  exact flights ▸ finish outcome after kept

theorem wp_bind_mild {program : Engine α} {rest : α → Engine β} (mild : program.Mild)
    {post : Except Failure β → World × Flight → Prop} {origin world : World} {flight : Flight}
    (still : flight.fail = flight) (start : Kept origin world)
    (raised : ∀ error after, Kept origin after → post (.error error) (after, flight))
    (continue_ : ∀ value after, Kept origin after →
      (rest value).wp observed post (after, flight)) :
    (program >>= rest).wp observed post (world, flight) := by
  rw [Program.bind_eq_bind, Program.wp_bind]
  refine wp_of_mild_still mild still start fun outcome after kept => ?_
  cases outcome with
  | ok value => exact continue_ value after kept
  | error error => exact raised error after kept

end Mild

/-! ## The broker and the bookkeeping -/

/-- With an order in flight the broker fills it, or fails and loses it with the flag up. -/
theorem wp_placeOrder_inFlight (round8 : ℚ → ℚ) (order : Submission) (world : World)
    (post : Except Failure BrokerOrder → World × Flight → Prop)
    (lost : ∀ after, after.redis .inFlightOrder = world.redis .inFlightOrder →
      post (.error .redisError) (after, .lost))
    (placed : ∀ (slippage : Slippage) (now brokerOrderId : String),
      post (.ok (PaperBroker.receipt order.symbol order.side order.qty
          (slippedPrice round8 order.side order.price slippage) brokerOrderId))
        (world.fill order (slippedPrice round8 order.side order.price slippage) now brokerOrderId,
          .inFlight)) :
    (PaperBroker.placeOrder round8 order.symbol order.side order.qty order.price).wp observed post
      (world, .inFlight) := by
  have cash : (((world.submit order).writeOnce .paperCash defaultPaperCash).redis
      .paperCash).getD defaultPaperCash = world.book.cash := by
    rw [World.writeOnce_cash, Option.getD_some, World.book_submit]
  simp (disch := simp) only [PaperBroker.placeOrder, PaperBroker.getCash, PaperBroker.getPosition,
    Program.bind_eq_bind, Program.bind_assoc, Program.wp_bind, observed_tradesSubmitted,
    observed_redisSetnx, observed_uniform, observed_redisGet, observed_redisSet, observed_uuid4,
    observed_utcNow, Program.andThen_ok, Program.andThen_error, Program.pure_eq_ret, Program.wp_ret,
    World.writeOnce_writeOnce, World.writeOnce_write]
  refine ⟨fun _ => lost _ rfl, fun slippage => ⟨fun _ => lost _ (by simp),
    fun _ => lost _ (by simp), fun _ => lost _ (by simp), fun _ => lost _ (by simp),
    fun now => ⟨fun _ => lost _ (by simp),
      fun brokerOrderId => ⟨fun _ => lost _ (by simp), ?_⟩⟩⟩⟩
  have filled := placed slippage now brokerOrderId
  rw [World.fill, ← cash] at filled
  exact filled

/-- The outcome has been pushed where it is not zero, and the flag is down. -/
structure Recorded (realizedPnl : ℚ) (before after : World) : Prop where
  book : after.book = before.book
  submitted : after.submitted = before.submitted
  flag : after.redis .inFlightOrder = none
  outcomes : realizedPnl ≠ 0 →
    after.redis .recentOutcomes = pushOutcome realizedPnl (before.redis .recentOutcomes)

/-- A healthy Redis takes the outcome and the flag. -/
theorem wp_recordOutcome_clearInFlight (realizedPnl : ℚ) (world : World) (flight : Flight)
    (post : Except Failure Unit → World × Flight → Prop)
    (recorded : ∀ after, Recorded realizedPnl world after → post (.ok ()) (after, flight)) :
    ((recordOutcome realizedPnl).bind fun _ => clearInFlight).wp observed post (world, flight) := by
  by_cases nothing : realizedPnl = 0
  · simp only [recordOutcome, clearInFlight, nothing, Program.bind_eq_bind, Program.wp_bind,
      Program.wp_attempt, observed_redisDelete, Program.andThen_ok, Program.pure_eq_ret,
      Program.wp_ret, ne_eq, not_true_eq_false, if_false]
    refine ⟨fun broker => broker.elim, recorded _ ?_⟩
    exact ⟨World.book_congr (by simp) (by simp), rfl, by simp, fun moved => absurd nothing moved⟩
  · simp only [recordOutcome, clearInFlight, nothing, Program.bind_eq_bind, Program.wp_bind,
      Program.wp_attempt, observed_redisDelete, observed_redisModify, Program.andThen_ok,
      Program.andThen_error, Program.pure_eq_ret, Program.wp_ret, ne_eq, not_false_eq_true, if_true]
    refine ⟨fun broker => broker.elim, fun broker => broker.elim, fun broker => broker.elim,
      recorded _ ?_⟩
    refine ⟨World.book_congr (by simp) (by simp), rfl, by simp, fun _ => ?_⟩
    simp [pushOutcome]

theorem observed_runtimeStore (change : RuntimeStore → RuntimeStore) (world : World)
    (flight : Flight) (post : Except Failure Unit → World × Flight → Prop) :
    (runtimeStore change).wp observed post (world, flight) ↔
      post (.ok ()) ({ world with runtime := change world.runtime }, flight) := by
  rw [runtimeStore, Program.wp_perform]
  exact ⟨fun holds => holds {} trivial, fun holds _ _ => holds⟩

theorem wp_publish {event : StreamEvent} {world : World} {flight : Flight}
    {post : Except Failure Unit → World × Flight → Prop}
    (published : ∀ after, Kept world after → post (.ok ()) (after, flight)) :
    (publish event).wp observed post (world, flight) := by
  rw [publish, Program.wp_perform]
  intro choice _
  have mild : (EngineOp.publish event).Mild := trivial
  have kept := kept_of_mild mild choice world
  have answer : (engineHandler (.publish event) choice world).1 = .ok () := by
    by_cases fails : choice.redisFails = true
    · simp [engineHandler, fails]
    · simp [engineHandler, fails]
  rw [answer]
  exact published _ kept

theorem wp_publishFillEvents {ctx : FillContext} {world : World} {flight : Flight}
    {post : Except Failure Unit → World × Flight → Prop}
    (published : ∀ after, Kept world after → post (.ok ()) (after, flight)) :
    (publishFillEvents ctx).wp observed post (world, flight) := by
  simp only [publishFillEvents, Program.bind_eq_bind, Program.wp_bind]
  refine wp_publish fun first one => wp_publish fun second two => ?_
  by_cases closes : ctx.isRoundTripClose = true
  · simp only [closes, if_true, Program.wp_bind]
    exact wp_publish fun third three => wp_publish fun fourth four =>
      published _ (((one.trans two).trans three).trans four)
  · simp only [closes, Bool.false_eq_true, if_false]
    exact wp_publish fun third three => published _ ((one.trans two).trans three)

/-- The runtime store takes a fill; the broker's position may not be read. -/
theorem wp_recordFillToStore_inFlight {ctx : FillContext} {brokerOrderId : String} {world : World}
    {post : Except Failure Unit → World × Flight → Prop}
    (lost : ∀ after, Kept world after → post (.error .redisError) (after, .lost))
    (stored : ∀ after, Kept world after → post (.ok ()) (after, .inFlight)) :
    (recordFillToStore ctx brokerOrderId).wp observed post (world, .inFlight) := by
  have kept : ∀ runtime, Kept world { world with runtime := runtime } :=
    fun runtime => ⟨rfl, rfl, rfl, rfl⟩
  by_cases closes : ctx.isRoundTripClose = true
  · simp only [recordFillToStore, PaperBroker.getPosition, closes, if_true, Program.bind_eq_bind,
      Program.bind_assoc, Program.wp_bind, observed_runtimeStore, observed_redisGet,
      Program.andThen_ok, Program.andThen_error, Program.pure_eq_ret, Program.wp_ret]
    exact ⟨fun _ => lost _ (kept _), stored _ (kept _)⟩
  · simp only [recordFillToStore, PaperBroker.getPosition, closes, Bool.false_eq_true, if_false,
      Program.bind_eq_bind, Program.bind_assoc, Program.ret_bind, Program.wp_bind,
      observed_runtimeStore, observed_redisGet, Program.andThen_ok, Program.andThen_error,
      Program.pure_eq_ret]
    exact ⟨fun _ => lost _ (kept _), stored _ (kept _)⟩

/-- Events and the runtime store leave the bookkeeping alone; the cost of the decision may be no
number. -/
theorem wp_recordFill_inFlight (config : Config) (data : Decision) (order : Order)
    (prior : Position) (orderId : String) (qty : ℚ) (receipt : BrokerOrder) (world : World)
    (post : Except Failure FillContext → World × Flight → Prop)
    (unpriced : data.decisionCostUsd.toFloatOrZero = none →
      post (.error .valueError) (world, .inFlight))
    (lost : ∀ after, Kept world after → post (.error .redisError) (after, .lost))
    (recorded : ∀ ctx after, data.decisionCostUsd.toFloatOrZero ≠ none → Kept world after →
      ctx.realizedPnl = computeRealizedPnl config.round8 prior order.side qty receipt.fillPrice →
      post (.ok ctx) (after, .inFlight)) :
    (recordFill config data order prior orderId qty receipt).wp observed post
      (world, .inFlight) := by
  simp only [recordFill, Program.bind_eq_bind, Program.wp_bind, observed_utcNow,
    Program.andThen_ok]
  intro filledAt
  cases cost : data.decisionCostUsd.toFloatOrZero with
  | none => exact unpriced cost
  | some decisionCostUsd =>
      simp only [requireFloat, Program.pure_eq_ret, Program.wp_ret, Program.andThen_ok]
      refine wp_recordFillToStore_inFlight lost fun stored first => ?_
      rw [Program.andThen_ok]
      refine wp_publishFillEvents fun published second => ?_
      rw [Program.andThen_ok, Program.wp_ret]
      refine recorded _ published ?_ (first.trans second) ?_
      · rw [cost]
        exact Option.some_ne_none decisionCostUsd
      · rw [fillContext]

end InFlight

end TradingControl
