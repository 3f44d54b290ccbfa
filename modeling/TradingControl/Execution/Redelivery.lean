import TradingControl.Execution.LongOnly

/-!
# Redelivery on the in-memory path

The path marks a decision as seen before it takes the symbol's lock and calls the broker.  A
delivery that raises in between leaves the mark behind, and the mark turns the redelivery into a
no-op.
-/

namespace TradingControl

open Effects Python Engine

/-! ## The path up to the mark and after it -/

/-- In-memory path up to the `SET NX` that marks the decision as seen. -/
def claimOrder (config : Config) (data : Decision) : Engine (Option Order) := do
  match ← prepareOrder config data with
  | none => return none
  | some order =>
      if ← redisSetnx (.orderDedup order.idempotencyKey) "1" then return some order
      else return none

/-- In-memory path after the mark. -/
def executeClaimed (config : Config) (data : Decision) (order : Order) : Engine Unit := do
  let orderId ← uuid4
  let lockValue ← uuid4
  if ← redisSetnx (.orderLock order.symbol) lockValue then
    (executeInMemory config data order orderId).tryFinally (redisDelete (.orderLock order.symbol))
  else
    .raise (.lockHeld order.symbol)

variable {config : Config} {data : Decision} {order : Order} {qty : ℚ}

theorem submitInMemory_eq (config : Config) (data : Decision) (order : Order) :
    submitInMemory config data order =
      (redisSetnx (.orderDedup order.idempotencyKey) "1").bind fun unseen =>
        if unseen = true then executeClaimed config data order else .ret () := rfl

theorem processInMemory_eq (config : Config) (data : Decision) :
    processInMemory config data = (claimOrder config data).bind fun
      | none => .ret ()
      | some order => executeClaimed config data order := by
  rw [processInMemory, claimOrder]
  simp only [Program.bind_eq_bind, Program.bind_assoc]
  congr 1
  funext prepared
  cases prepared with
  | none => rfl
  | some order =>
      dsimp only
      rw [submitInMemory_eq, Program.bind_assoc]
      congr 1
      funext unseen
      cases unseen with
      | true => rfl
      | false => rfl

/-! ## Who touches the marks -/

/-- The same decisions are marked as seen. -/
def SameMarks (before after : World) : Prop :=
  ∀ key, after.redis (.orderDedup key) = before.redis (.orderDedup key)

theorem SameMarks.trans {before middle after : World} (first : SameMarks before middle)
    (second : SameMarks middle after) : SameMarks before after :=
  fun key => (second key).trans (first key)

/-- Operations that leave every mark alone. -/
def EngineOp.KeepsMarks (op : EngineOp) : Prop :=
  ∀ choice world, SameMarks world (engineHandler op choice world).2

theorem keepsMarks_redis {command : KeyValue.Command Key.Value}
    (other : ∀ key, command.key ≠ .orderDedup key) : (EngineOp.redis command).KeepsMarks := by
  intro choice world key
  by_cases fails : choice.redisFails = true
  · simp [engineHandler, fails]
  · simp only [engineHandler, fails]
    exact command.apply_other world.redis (other key).symm

theorem keepsMarks_of_quiet {α : Type} {program : Engine α} (quiet : program.Quiet) :
    program.Calls EngineOp.KeepsMarks :=
  quiet.mono fun _ quiet choice world => (steady_of_quiet quiet choice world).orderDedup

theorem keepsMarks_placeOrder (round8 : ℚ → ℚ) (symbol side : String) (qty price : ℚ) :
    (PaperBroker.placeOrder round8 symbol side qty price).Calls EngineOp.KeepsMarks := by
  have set : ∀ (key : Key) (value : key.Value), (∀ mark, key ≠ .orderDedup mark) →
      (redisSet key value).Calls EngineOp.KeepsMarks :=
    fun key value other => Program.calls_perform (keepsMarks_redis other)
  have submitted : (tradesSubmitted
      { symbol := symbol, side := side, qty := qty, price := price }).Calls EngineOp.KeepsMarks :=
    Program.calls_perform fun _ _ _ => rfl
  refine Program.calls_bind submitted fun _ => ?_
  refine Program.calls_bind (Program.calls_perform (keepsMarks_redis (by simp [KeyValue.Command.key]))) fun _ => ?_
  refine Program.calls_bind (Program.calls_perform fun _ _ _ => rfl) fun slippage => ?_
  refine Program.calls_bind (keepsMarks_of_quiet quiet_getCash) fun cash => ?_
  refine Program.calls_bind (set _ _ (by simp)) fun _ => ?_
  refine Program.calls_bind (keepsMarks_of_quiet (quiet_getPosition _)) fun current => ?_
  refine Program.calls_bind (keepsMarks_of_quiet quiet_utcNow) fun now => ?_
  refine Program.calls_bind (set _ _ (by simp)) fun _ => ?_
  refine Program.calls_bind (keepsMarks_of_quiet quiet_uuid4) fun brokerOrderId => ?_
  exact Program.calls_bind (set _ _ (by simp)) fun _ => trivial

theorem keepsMarks_executeClaimed (config : Config) (data : Decision) (order : Order) :
    (executeClaimed config data order).Calls EngineOp.KeepsMarks := by
  refine Program.calls_bind (keepsMarks_of_quiet quiet_uuid4) fun orderId => ?_
  refine Program.calls_bind (keepsMarks_of_quiet quiet_uuid4) fun lockValue => ?_
  refine Program.calls_bind (Program.calls_perform (keepsMarks_redis (by simp [KeyValue.Command.key]))) fun locked => ?_
  split
  case isFalse => trivial
  refine Program.calls_tryFinally ?_ (Program.calls_perform (keepsMarks_redis (by simp [KeyValue.Command.key])))
  refine Program.calls_bind (keepsMarks_of_quiet (quiet_getPosition _)) fun prior => ?_
  split
  · exact keepsMarks_of_quiet (quiet_bind (quiet_runtimeStore _) fun _ => quiet_publish _)
  · trivial
  · refine Program.calls_bind (keepsMarks_of_quiet (quiet_setInFlight _)) fun _ => ?_
    refine Program.calls_bind (keepsMarks_placeOrder _ _ _ _ _) fun receipt => ?_
    exact keepsMarks_of_quiet (quiet_bind (quiet_recordFill _ _ _ _ _ _ _) fun ctx =>
      quiet_bind (quiet_recordOutcome _) fun _ => quiet_clearInFlight)

/-- A run of operations that leave the marks alone leaves them alone. -/
theorem sameMarks_exec {α : Type} {program : Engine α} (calls : program.Calls EngineOp.KeepsMarks)
    (choices : ℕ → Choice) (world : World) :
    SameMarks world (program.exec engineHandler choices world).2 := by
  have kept : ∀ op : EngineOp, op.KeepsMarks → ∀ choice before, SameMarks world before →
      SameMarks world (engineHandler op choice before).2 :=
    fun op keeps choice before same => same.trans (keeps choice before)
  exact Handler.exec_of_calls kept calls choices fun _ => rfl

/-- Marks after the claim: the order's key is marked, or nothing is. -/
def Claimed (before : World) : Except Failure (Option Order) → World → Prop
  | .ok (some order), after => after.redis (.orderDedup order.idempotencyKey) = some "1" ∧
      ∀ key, key ≠ order.idempotencyKey →
        after.redis (.orderDedup key) = before.redis (.orderDedup key)
  | _, after => SameMarks before after

theorem claimed_exec (config : Config) (data : Decision) (choices : ℕ → Choice) (world : World) :
    Claimed world ((claimOrder config data).exec engineHandler choices world).1
      ((claimOrder config data).exec engineHandler choices world).2 := by
  have claims : (claimOrder config data).wp (sequential True) (Claimed world) world := by
    apply wp_bind_quiet (quiet_prepareOrder config data) (.refl world)
    · exact fun _ after steady => steady.orderDedup
    intro prepared after steady
    cases prepared with
    | none => exact steady.orderDedup
    | some order =>
        dsimp only
        rw [Program.bind_eq_bind, Program.wp_bind, wp_redisSetnx, Program.andThen_error,
          Program.andThen_ok]
        refine ⟨fun _ => steady.orderDedup, ?_⟩
        cases held : after.redis (.orderDedup order.idempotencyKey) with
        | some mark =>
            rw [World.writeOnce_of_some _ held]
            exact steady.orderDedup
        | none =>
            rw [World.writeOnce_of_none _ _ held]
            refine ⟨World.write_redis_self .., fun key other => ?_⟩
            rw [World.write_redis_other _ (by simpa using other), steady.orderDedup]
  exact Handler.exec_of_wp claims choices fun _ _ => trivial

/-! ## The redelivery -/

theorem wp_executeClaimed {world : World} (free : world.redis (.orderLock order.symbol) = none)
    (admitted : admission config.settings order.side order.qty
      (world.book.position order.symbol) = .submit qty) :
    (executeClaimed config data order).wp (sequential False)
      (fun _ after => after.submitted = world.submitted ++
        [{ symbol := order.symbol, side := order.side, qty := qty, price := order.price }])
      world := by
  rw [executeClaimed]
  simp only [Program.bind_eq_bind, Program.wp_bind, wp_uuid4, wp_redisSetnx, Program.andThen_ok,
    Program.andThen_error, free, Option.isNone_none, if_true, Program.wp_tryFinally]
  intro orderId lockValue
  refine ⟨fun impossible => impossible.elim, ?_⟩
  have locked := Untouched.writeOnce_orderLock world order.symbol lockValue
  rw [executeInMemory]
  rw [Program.bind_eq_bind, Program.wp_bind, PaperBroker.wp_getPosition, Program.andThen_ok,
    locked.book, admitted]
  refine ⟨fun impossible => impossible.elim, ?_⟩
  dsimp only
  rw [Program.bind_eq_bind, Program.wp_bind, wp_redisSet, Program.andThen_ok, Program.bind_eq_bind,
    Program.wp_bind]
  refine ⟨fun impossible => impossible.elim, ?_⟩
  refine PaperBroker.wp_placeOrder config.round8
    { symbol := order.symbol, side := order.side, qty := qty, price := order.price } _ _
    (fun impossible => impossible.elim) fun slippage now brokerOrderId => ?_
  rw [Program.andThen_ok]
  refine wp_of_quiet (quiet_bind (quiet_recordFill _ _ _ _ _ _ _) fun ctx =>
    quiet_bind (quiet_recordOutcome _) fun _ => quiet_clearInFlight) (.refl _) ?_
  intro outcome after steady
  rw [wp_redisDelete]
  refine ⟨fun impossible => impossible.elim, ?_⟩
  rw [Program.andThen_ok, World.erase_submitted, steady.submitted]
  rfl

/-- From the mark on, an admitted order is placed exactly where it had not been marked. -/
theorem wp_submitInMemory_placed {world : World}
    (free : world.redis (.orderLock order.symbol) = none)
    (admitted : admission config.settings order.side order.qty
      (world.book.position order.symbol) = .submit qty) :
    (submitInMemory config data order).wp (sequential False)
      (fun _ after => after.submitted = world.submitted ++
          [{ symbol := order.symbol, side := order.side, qty := qty, price := order.price }] ↔
        world.redis (.orderDedup order.idempotencyKey) = none) world := by
  rw [submitInMemory_eq, Program.wp_bind, wp_redisSetnx, Program.andThen_ok]
  refine ⟨fun impossible => impossible.elim, ?_⟩
  cases held : world.redis (.orderDedup order.idempotencyKey) with
  | some mark =>
      rw [World.writeOnce_of_some _ held]
      simp
  | none =>
      rw [World.writeOnce_of_none _ _ held]
      have book : (world.write (.orderDedup order.idempotencyKey) "1").book = world.book :=
        World.book_congr (by simp) (by simp)
      rw [← book] at admitted
      refine Program.wp_mono sequential_monotone (fun _ after placed => ?_)
        (wp_executeClaimed (by simpa using free) admitted)
      exact ⟨fun _ => rfl, fun _ => placed⟩

/-- The delivery does not get as far as marking the key: it is over before that, or its order has
another key. -/
def LeavesUnmarked (config : Config) (data : Decision) (choices : ℕ → Choice) (world : World)
    (idempotencyKey : String) : Prop :=
  ∀ claimed, ((claimOrder config data).exec engineHandler choices world).1 = .ok (some claimed) →
    claimed.idempotencyKey ≠ idempotencyKey

/-- A delivery that marks its order leaves the mark behind, however it ends. -/
theorem marked_iff {choices : ℕ → Choice} {world : World} {key : String}
    (unseen : world.redis (.orderDedup key) = none) :
    ((processInMemory config data).exec engineHandler choices world).2.redis (.orderDedup key) =
        none ↔ LeavesUnmarked config data choices world key := by
  have claims := claimed_exec config data choices world
  rw [processInMemory_eq, Program.exec_bind]
  rw [LeavesUnmarked]
  rcases result : (claimOrder config data).exec engineHandler choices world with ⟨outcome, after⟩
  rw [result] at claims
  cases outcome with
  | error error =>
      have same : SameMarks world after := claims
      simp [same key, unseen]
  | ok claimed =>
      cases claimed with
      | none =>
          have same : SameMarks world after := claims
          simp [Program.exec, same key, unseen]
      | some claimed =>
          obtain ⟨marked, others⟩ := claims
          dsimp only
          rw [sameMarks_exec (keepsMarks_executeClaimed config data claimed) _ after key]
          by_cases same : claimed.idempotencyKey = key
          · rw [← same, marked]
            simp
          · rw [others key (Ne.symm same), unseen]
            simp [same]

/-- The redelivery of an order that passes the gates and is admitted under a free lock is placed
exactly where the first delivery, whether it raised or not, did not get as far as its mark. -/
theorem redelivery_placed_iff (config : Config) (data : Decision) {start between : World}
    {first second : ℕ → Choice} {order : Order} {qty : ℚ}
    (unseen : start.redis (.orderDedup order.idempotencyKey) = none)
    (kept : SameMarks ((processInMemory config data).exec engineHandler first start).2 between)
    (redis : ∀ n, (second n).redisFails = false)
    (free : between.redis (.orderLock order.symbol) = none)
    (prepared : ((prepareOrder config data).exec engineHandler second between).1 =
      .ok (some order))
    (admitted : admission config.settings order.side order.qty
      (between.book.position order.symbol) = .submit qty) :
    ((processInMemory config data).exec engineHandler second between).2.submitted =
        between.submitted ++
          [{ symbol := order.symbol, side := order.side, qty := qty, price := order.price }] ↔
      LeavesUnmarked config data first start order.idempotencyKey := by
  rw [← marked_iff unseen, ← kept order.idempotencyKey]
  have steady := steady_exec (quiet_prepareOrder config data) second between
  rw [processInMemory]
  rw [Program.bind_eq_bind, Program.exec_bind]
  rcases result : (prepareOrder config data).exec engineHandler second between with ⟨outcome, after⟩
  rw [result] at prepared steady
  obtain rfl := prepared
  dsimp only at steady ⊢
  rw [← steady.submitted, ← steady.orderDedup]
  rw [← steady.orderLock] at free
  rw [← steady.book] at admitted
  exact Handler.exec_of_wp (wp_submitInMemory_placed free admitted) _ fun n fails => by
    simp [redis] at fails

/-! ## A held lock -/

/-- A world in which another order holds the lock of bitcoin. -/
def lockedWorld : World := freshWorld.write (.orderLock "BTC/USD") "other order"

/-- Delivery of a buy on the in-memory path. -/
def deliverInMemory (choice : Choice) (world : World) : Except Failure Unit × World :=
  (processInMemory {} (bitcoinDecision "buy")).exec engineHandler (fun _ => choice) world

/-- Order of that buy. -/
def bitcoinOrder : Order where
  symbol := "BTC/USD"
  side := "buy"
  qty := 1
  price := 100
  strategyId := "momentum"
  traceId := "trace"
  signalConfidence := 1
  idempotencyKey := "momentum_BTC/USD_buy_2026-01-01T00:00:00Z_"

/-- A first delivery that Redis fails from the start leaves nothing that stops the redelivery. -/
theorem redelivery_placed_unmarked :
    (deliverInMemory {} (deliverInMemory { redisFails := true } freshWorld).2).2.submitted =
        (deliverInMemory { redisFails := true } freshWorld).2.submitted ++
          [{ symbol := "BTC/USD", side := "buy", qty := 1, price := 100 }] ↔
      LeavesUnmarked {} (bitcoinDecision "buy") (fun _ => { redisFails := true }) freshWorld
        bitcoinOrder.idempotencyKey := by
  have prepared : ((prepareOrder {} (bitcoinDecision "buy")).exec engineHandler (fun _ => {})
      (deliverInMemory { redisFails := true } freshWorld).2).1 = .ok (some bitcoinOrder) := by
    decide +kernel
  exact redelivery_placed_iff {} (bitcoinDecision "buy") rfl (fun _ => rfl) (fun _ => rfl)
    (by decide +kernel) prepared (by decide +kernel)

/-- A delivery that finds the lock held raises before the broker is called; once the lock is free,
the redelivery returns without placing what a first delivery would place. -/
theorem redelivery_swallowed :
    let first := deliverInMemory {} lockedWorld
    let freed := first.2.erase (.orderLock "BTC/USD")
    first.1 = .error (.lockHeld "BTC/USD") ∧ first.2.submitted = [] ∧
      (deliverInMemory {} freed).2.submitted = [] ∧
      (deliverInMemory {} (lockedWorld.erase (.orderLock "BTC/USD"))).2.submitted =
        [{ symbol := "BTC/USD", side := "buy", qty := 1, price := 100 }] := by
  refine ⟨?_, ?_, ?_, ?_⟩
  all_goals decide +kernel

end TradingControl
