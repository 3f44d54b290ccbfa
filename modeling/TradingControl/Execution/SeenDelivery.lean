import TradingControl.Execution.GateVerdicts

/-!
# What a delivery leaves to be seen

The book, the orders submitted and the PnL that are left at a moment, as a function of the world and
the decision.  The order of the recording differs between the two paths only where the cost of the
decision is no number: the in-memory path fails before it pushes the outcome, the database path
after it.
-/

namespace TradingControl

open Effects Python Engine

/-- The order handed to the broker. -/
def Order.submission (order : Order) (qty : ℚ) : Submission where
  symbol := order.symbol
  side := order.side
  qty := qty
  price := order.price

/-- The kill switch is on, or trading is paused. -/
def World.halted (world : World) : Bool :=
  world.redis .killSwitch = some "1" || world.redis .tradingPaused = some "1"

namespace Moment

variable (moment : Moment) (config : Config)

/-! ## Orders -/

def fillPrice (order : Order) : ℚ :=
  slippedPrice config.round8 order.side order.price moment.slippage

/-- PnL of a fill. -/
def realizedPnl (order : Order) (qty : ℚ) (seen : Seen) : ℚ :=
  computeRealizedPnl config.round8 (seen.book.position order.symbol) order.side qty
    (moment.fillPrice config order)

/-- What a fill leaves before it is recorded. -/
def seenPlaced (order : Order) (qty : ℚ) (seen : Seen) : Seen :=
  seen.place (order.submission qty) (moment.fillPrice config order) moment.utcMinute

/-- What an admitted order leaves. -/
def seenFilled (data : Decision) (order : Order) (qty : ℚ) (seen : Seen) : Seen :=
  let realizedPnl := moment.realizedPnl config order qty seen
  let filled := moment.seenPlaced config order qty seen
  match data.decisionCostUsd.toFloatOrZero with
  | some _ => (filled.push realizedPnl).perform realizedPnl
  | none => if moment.dbAvailable then filled.push realizedPnl else filled

/-- What an order leaves under the lock. -/
def seenAdmitted (data : Decision) (order : Order) (seen : Seen) : Seen :=
  match admission config.settings order.side order.qty (seen.book.position order.symbol) with
  | .submit qty => moment.seenFilled config data order qty seen
  | .rejectSell => seen
  | .rejectBuy => seen

def recorded (world : World) (idempotencyKey : String) : Bool :=
  if moment.dbAvailable then (world.db.findOrder idempotencyKey).isSome
  else (world.redis (.orderDedup idempotencyKey)).isSome

/-- What an order leaves. -/
def seenSubmitted (data : Decision) (order : Order) (world : World) : Seen :=
  if moment.recorded world order.idempotencyKey ∨
      (world.redis (.orderLock order.symbol)).isSome = true then world.seen
  else moment.seenAdmitted config data order world.seen

variable {moment config} {world : World} {data : Decision} {order : Order}

/-- The two recordings of a PnL commute. -/
theorem push_perform (seen : Seen) (pushed performed : ℚ) :
    (seen.push pushed).perform performed = (seen.perform performed).push pushed := by
  unfold Seen.push
  split
  · rfl
  · rfl

theorem wp_placeSubmission (qty : ℚ) (post : Except Failure BrokerOrder → World → Prop)
    (placed : ∀ receipt after, receipt.fillPrice = moment.fillPrice config order →
      after.db = world.db → after.seen = moment.seenPlaced config order qty world.seen →
      post (.ok receipt) after) :
    (PaperBroker.placeOrder config.round8 order.symbol order.side qty order.price).wp moment.during
      post world :=
  wp_placeOrder config.round8 (order.submission qty) post fun _ =>
    placed _ _ rfl (by simp [World.fill]) (World.seen_fill ..)

theorem wp_executeInMemory (memory : moment.dbAvailable = false) (orderId : String)
    (post : Except Failure Unit → World → Prop)
    (seen : ∀ outcome after, after.seen = moment.seenAdmitted config data order world.seen →
      post outcome after) :
    (executeInMemory config data order orderId).wp moment.during post world := by
  have prior : world.book.position order.symbol = world.seen.book.position order.symbol := rfl
  simp only [executeInMemory, Program.bind_eq_bind, Program.wp_bind, wp_getPosition,
    Program.andThen_ok]
  cases admitted : admission config.settings order.side order.qty
      (world.book.position order.symbol) with
  | rejectSell =>
      simp only [Program.wp_bind, wp_runtimeStore, wp_publish, Program.andThen_ok]
      refine seen _ _ ?_
      rw [World.seen_sellRejected, seenAdmitted, ← prior, admitted]
  | rejectBuy =>
      refine seen _ _ ?_
      rw [seenAdmitted, ← prior, admitted]
  | submit qty =>
      have target : moment.seenAdmitted config data order world.seen =
          moment.seenFilled config data order qty world.seen := by
        rw [seenAdmitted, ← prior, admitted]
      rw [target] at seen
      simp only [Program.wp_bind, wp_redisSet, Program.andThen_ok]
      refine wp_placeSubmission _ _ fun receipt filled price _ placed => ?_
      rw [World.seen_write _ Key.hidden_inFlightOrder] at placed
      rw [Program.andThen_ok]
      refine wp_recordFill _ _ _ _ _ _ _ (fun unpriced => ?_)
        fun cost priced ctx after pnl same => ?_
      · refine seen _ _ ?_
        simp only [placed, seenFilled, unpriced, memory, Bool.false_eq_true, if_false]
      · rw [price] at pnl
        rw [Program.andThen_ok]
        refine wp_recordOutcome _ _ fun pushed _ outcome => ?_
        rw [Program.andThen_ok, wp_clearInFlight]
        refine seen _ _ ?_
        rw [World.seen_erase _ Key.hidden_inFlightOrder, outcome, same, placed, ← push_perform, pnl]
        simp only [seenFilled, priced]
        rfl

/-- The orders and the audit log of a transaction show nowhere. -/
theorem wp_insertRejectedOrderOnce (order : Order)
    (unknown : world.db.findOrder order.idempotencyKey = none)
    (post : Except Failure (ℕ × Bool × Session) → World → Prop)
    (inserted : ∀ orderId session db, post (.ok (orderId, true, session)) { world with db := db }) :
    (OrderWriter.insertRejectedOrderOnce [] order.idempotencyKey order.strategyId order.symbol
      order.side order.qty order.price).wp moment.during post world := by
  have view : (world.db.view []).findOrder order.idempotencyKey = none := unknown
  simp only [OrderWriter.insertRejectedOrderOnce, Program.bind_eq_bind, Program.wp_bind,
    wp_database, Statement.run, view, Program.andThen_ok]
  exact inserted _ _ _

theorem wp_insertPendingOrder (order : Order) (qty : ℚ)
    (unknown : world.db.findOrder order.idempotencyKey = none)
    (post : Except Failure (ℕ × Session) → World → Prop)
    (inserted : ∀ orderId session db, post (.ok (orderId, session)) { world with db := db }) :
    (OrderWriter.insertPendingOrder [] order.strategyId order.symbol order.side qty order.price
      order.idempotencyKey "pending").wp moment.during post world := by
  have view : (world.db.view []).findOrder order.idempotencyKey = none := unknown
  simp only [OrderWriter.insertPendingOrder, Program.bind_eq_bind, Program.wp_bind,
    wp_database, Statement.run, view, Program.andThen_ok]
  exact inserted _ _ _

/-- An order on the database path, up to the broker's answer. -/
theorem wp_placeWithDb (unknown : world.db.findOrder order.idempotencyKey = none)
    (post : Except Failure Placement → World → Prop)
    (rejected : ∀ after, after.seen = world.seen →
      (∀ qty, admission config.settings order.side order.qty
        (world.seen.book.position order.symbol) ≠ .submit qty) → post (.ok .rejected) after)
    (filled : ∀ qty orderId receipt session after,
      admission config.settings order.side order.qty (world.seen.book.position order.symbol) =
        .submit qty →
      receipt.fillPrice = moment.fillPrice config order →
      after.seen = moment.seenPlaced config order qty world.seen →
      post (.ok (.filled orderId qty receipt session)) after) :
    (placeWithDb config order (world.seen.book.position order.symbol)).wp moment.during post
      world := by
  rw [placeWithDb]
  cases admitted : admission config.settings order.side order.qty
      (world.seen.book.position order.symbol) with
  | rejectSell =>
      have refused : ∀ qty, admission config.settings order.side order.qty
          (world.seen.book.position order.symbol) ≠ .submit qty := by
        rw [admitted]
        simp
      simp only [Program.bind_eq_bind, Program.wp_bind]
      refine wp_insertRejectedOrderOnce order unknown _ fun orderId session db => ?_
      simp only [Program.andThen_ok, Program.wp_bind, wp_database, Statement.run, if_true,
        wp_publish]
      exact rejected _ (World.seen_sellRejected ..) refused
  | rejectBuy => exact rejected _ rfl (by rw [admitted]; simp)
  | submit qty =>
      simp only [Program.bind_eq_bind, Program.wp_bind]
      refine wp_insertPendingOrder order qty unknown _ fun orderId session db => ?_
      simp only [Program.andThen_ok, wp_database, Statement.run, wp_redisSet]
      refine wp_placeSubmission _ _ fun receipt after price _ placed => ?_
      rw [World.seen_write _ Key.hidden_inFlightOrder] at placed
      exact filled qty orderId receipt _ after admitted price placed

theorem wp_upsertPositionDb (session : Session) (qty fillPrice : ℚ) (avgCost : Option ℚ)
    (post : Except Failure Session → World → Prop)
    (upserted : ∀ session db, post (.ok session) { world with db := db }) :
    (OrderWriter.upsertPositionDb config.round8 session order.strategyId order.symbol order.side qty
      fillPrice avgCost).wp moment.during post world := by
  simp only [OrderWriter.upsertPositionDb, Program.bind_eq_bind, Program.wp_bind, wp_database,
    Statement.run, Program.andThen_ok]
  cases (world.db.view session).findPosition order.strategyId order.symbol with
  | none =>
      simp only [Program.wp_bind, wp_database, Statement.run, Program.andThen_ok]
      exact upserted _ _
  | some row =>
      simp only [Program.wp_bind, wp_database, Statement.run, Program.andThen_ok]
      exact upserted _ _

/-- The broker's answer is committed, and its outcome pushed. -/
theorem wp_commitFill (prior : Position) (orderId : ℕ) (qty : ℚ) (receipt : BrokerOrder)
    (session : Session) (post : Except Failure Unit → World → Prop)
    (committed : ∀ after, after.seen = world.seen.push
        (computeRealizedPnl config.round8 prior order.side qty receipt.fillPrice) →
      post (.ok ()) after) :
    (commitFill config order prior orderId qty receipt session).wp moment.during post world := by
  simp only [commitFill, OrderWriter.updateOrderFill, OrderWriter.insertAuditLog,
    Program.bind_eq_bind, Program.wp_bind, wp_database, Statement.run, wp_getPosition,
    Program.andThen_ok, Program.pure_eq_ret, Program.wp_ret]
  refine wp_upsertPositionDb _ _ _ _ _ fun session db => ?_
  simp only [Program.andThen_ok, wp_database, Statement.run, Program.wp_ret]
  generalize computeRealizedPnl config.round8 prior order.side qty receipt.fillPrice = realizedPnl
    at committed ⊢
  refine wp_recordOutcome _ _ fun after _ pushed => ?_
  rw [Program.andThen_ok, wp_clearInFlight]
  refine committed _ ?_
  rw [World.seen_erase _ Key.hidden_inFlightOrder, pushed, World.seen_db]

/-- Events of a committed fill, where the cost of its decision is a number. -/
theorem wp_publishCommitted (prior : Position) (orderId : ℕ) (qty : ℚ) (receipt : BrokerOrder)
    (post : Except Failure Unit → World → Prop)
    (published : ∀ outcome after,
      after.seen = (match data.decisionCostUsd.toFloatOrZero with
        | some _ => world.seen.perform
            (computeRealizedPnl config.round8 prior order.side qty receipt.fillPrice)
        | none => world.seen) → post outcome after) :
    (publishCommitted config data order prior orderId qty receipt).wp moment.during post
      world := by
  have confidence : (recordedConfidence order).wp moment.during
      (fun outcome after => ∃ confidence, outcome = .ok confidence ∧ after = world) world := by
    simp only [recordedConfidence, Program.bind_eq_bind, Program.wp_bind, Program.wp_attempt,
      wp_database, Statement.run, Program.andThen_ok]
    cases world.db.agentRunConfidence order.traceId with
    | none => exact ⟨_, rfl, rfl⟩
    | some confidence => exact ⟨_, rfl, rfl⟩
  simp only [publishCommitted, Program.bind_eq_bind, Program.wp_bind]
  refine Program.wp_mono moment.monotone ?_ confidence
  rintro _ _ ⟨confidence, rfl, rfl⟩
  simp only [Program.andThen_ok, wp_utcNow]
  cases cost : data.decisionCostUsd.toFloatOrZero with
  | none => exact published _ _ (by rw [cost])
  | some value =>
      refine wp_publishFillEvents _ _ fun after _ performed => published _ _ ?_
      rw [performed, fillContext_realizedPnl]
      simp only [cost]

/-- The database path under the lock. -/
theorem wp_executeWithDb (unknown : world.db.findOrder order.idempotencyKey = none)
    (post : Except Failure DbOutcome → World → Prop)
    (rejected : ∀ after, after.seen = world.seen →
      (∀ qty, admission config.settings order.side order.qty
        (world.seen.book.position order.symbol) ≠ .submit qty) → post (.ok .rejected) after)
    (committed : ∀ qty orderId receipt after,
      admission config.settings order.side order.qty (world.seen.book.position order.symbol) =
        .submit qty →
      receipt.fillPrice = moment.fillPrice config order →
      after.seen = (moment.seenPlaced config order qty world.seen).push
        (moment.realizedPnl config order qty world.seen) →
      post (.ok (.committed orderId qty receipt)) after) :
    (executeWithDb config order (world.seen.book.position order.symbol)).wp moment.during post
      world := by
  simp only [executeWithDb, Program.bind_eq_bind, Program.wp_bind, Program.wp_attempt]
  refine wp_placeWithDb unknown _ (fun after same refused => ?_) fun qty orderId receipt session
    after admitted price placed => ?_
  · exact rejected after same refused
  · simp only [Program.andThen_ok, Program.wp_bind, Program.wp_attempt]
    refine wp_commitFill _ _ _ _ _ _ fun pushed outcome => ?_
    rw [price, placed] at outcome
    exact committed qty orderId receipt pushed admitted price outcome

/-! ## From the key on -/

theorem seenSubmitted_of_free (unknown : moment.recorded world order.idempotencyKey = false)
    (free : world.redis (.orderLock order.symbol) = none) :
    moment.seenSubmitted config data order world =
      moment.seenAdmitted config data order world.seen := by
  rw [seenSubmitted, if_neg (by simp [unknown, free])]

theorem seenSubmitted_of_recorded (known : moment.recorded world order.idempotencyKey = true) :
    moment.seenSubmitted config data order world = world.seen := by
  rw [seenSubmitted, if_pos (Or.inl known)]

theorem seenSubmitted_of_held {lockValue : String}
    (held : world.redis (.orderLock order.symbol) = some lockValue) :
    moment.seenSubmitted config data order world = world.seen := by
  rw [seenSubmitted, if_pos (Or.inr (by rw [held]; rfl))]

theorem wp_submitInMemory (memory : moment.dbAvailable = false)
    (post : Except Failure Unit → World → Prop)
    (seen : ∀ outcome after, after.seen = moment.seenSubmitted config data order world →
      post outcome after) :
    (submitInMemory config data order).wp moment.during post world := by
  have key : moment.recorded world order.idempotencyKey =
      (world.redis (.orderDedup order.idempotencyKey)).isSome := by
    rw [recorded, memory]
    rfl
  simp only [submitInMemory, Program.bind_eq_bind, Program.wp_bind, wp_redisSetnx,
    Program.andThen_ok]
  cases dedup : world.redis (.orderDedup order.idempotencyKey) with
  | some claimed =>
      refine seen _ _ ?_
      rw [World.writeOnce_of_some _ dedup, seenSubmitted_of_recorded (by rw [key, dedup]; rfl)]
  | none =>
      rw [if_pos Option.isNone_none, World.writeOnce_of_none _ _ dedup]
      simp only [Program.wp_bind, wp_uuid4, wp_redisSetnx, Program.andThen_ok]
      intro orderId _ lockValue _
      have claimed := world.seen_write (Key.hidden_orderDedup order.idempotencyKey) "1"
      have lock : (world.write (.orderDedup order.idempotencyKey) "1").redis
          (.orderLock order.symbol) = world.redis (.orderLock order.symbol) := by simp
      cases held : world.redis (.orderLock order.symbol) with
      | some owner =>
          rw [held] at lock
          rw [lock, World.writeOnce_of_some _ lock]
          refine seen _ _ ?_
          rw [claimed, seenSubmitted_of_held held]
      | none =>
          rw [held] at lock
          rw [lock, if_pos Option.isNone_none, World.writeOnce_of_none _ _ lock,
            Program.wp_tryFinally]
          refine wp_executeInMemory memory _ _ fun outcome after filled => ?_
          rw [wp_redisDelete, Program.andThen_ok]
          refine seen _ _ ?_
          rw [World.seen_erase _ (Key.hidden_orderLock _), filled,
            World.seen_write _ (Key.hidden_orderLock _), claimed,
            seenSubmitted_of_free (by rw [key, dedup]; rfl) held]

theorem wp_underLock (database : moment.dbAvailable = true)
    (unknown : world.db.findOrder order.idempotencyKey = none)
    (post : Except Failure Unit → World → Prop)
    (seen : ∀ outcome after, after.seen = moment.seenAdmitted config data order world.seen →
      post outcome after) :
    (((executeWithDb config order (world.book.position order.symbol)).tryFinally
      (redisDelete (.orderLock order.symbol))).bind fun outcome =>
        match outcome with
        | .rejected => (pure () : Engine Unit)
        | .failed filled =>
            handleDbFailure config data order (world.book.position order.symbol) filled
        | .committed orderId qty receipt =>
            publishCommitted config data order (world.book.position order.symbol) orderId qty
              receipt).wp moment.during post world := by
  have prior : world.book.position order.symbol = world.seen.book.position order.symbol := rfl
  rw [Program.wp_bind, Program.wp_tryFinally, prior]
  refine wp_executeWithDb unknown _ (fun after same refused => ?_) fun qty orderId receipt after
    admitted price committed => ?_
  · rw [wp_redisDelete, Program.andThen_ok, Program.andThen_ok]
    refine seen _ _ ?_
    rw [World.seen_erase _ (Key.hidden_orderLock _), same, seenAdmitted]
    split
    · rename_i qty submitted
      exact absurd submitted (refused qty)
    · rfl
    · rfl
  · rw [wp_redisDelete, Program.andThen_ok, Program.andThen_ok]
    refine wp_publishCommitted _ _ _ _ _ fun outcome published performed => ?_
    refine seen _ _ ?_
    rw [World.seen_erase _ (Key.hidden_orderLock _), committed, price] at performed
    rw [performed, seenAdmitted, admitted]
    simp only [seenFilled]
    cases data.decisionCostUsd.toFloatOrZero with
    | none => rw [if_pos database]
    | some cost => rfl

theorem wp_submitWithDb (database : moment.dbAvailable = true)
    (post : Except Failure Unit → World → Prop)
    (seen : ∀ outcome after, after.seen = moment.seenSubmitted config data order world →
      post outcome after) :
    (submitWithDb config data order).wp moment.during post world := by
  have key : moment.recorded world order.idempotencyKey =
      (world.db.findOrder order.idempotencyKey).isSome := by
    rw [recorded, database]
    rfl
  have view : (world.db.view []).findOrder order.idempotencyKey =
      world.db.findOrder order.idempotencyKey := rfl
  simp only [submitWithDb, Program.bind_eq_bind, Program.wp_bind, wp_uuid4, wp_database,
    Statement.run, Program.andThen_ok, view]
  intro lockValue _
  cases row : world.db.findOrder order.idempotencyKey with
  | some known =>
      exact seen _ _ (seenSubmitted_of_recorded (by rw [key, row]; rfl)).symm
  | none =>
      simp only [Program.wp_bind, wp_redisSetnx, Program.andThen_ok]
      cases held : world.redis (.orderLock order.symbol) with
      | some owner =>
          rw [World.writeOnce_of_some _ held]
          exact seen _ _ (seenSubmitted_of_held held).symm
      | none =>
          rw [seenSubmitted_of_free (by rw [key, row]; rfl) held] at seen
          rw [if_pos Option.isNone_none, World.writeOnce_of_none _ _ held]
          rw [Program.wp_bind, wp_getPosition, Program.andThen_ok]
          have unknown : (world.write (.orderLock order.symbol) lockValue).db.findOrder
              order.idempotencyKey = none := row
          refine wp_underLock database unknown _ fun outcome after admitted => seen outcome after ?_
          rw [admitted, World.seen_write _ (Key.hidden_orderLock _)]

/-! ## From the decision on -/

variable (moment config world data)

/-- Quantity of an order; a size that is no number is an exception. -/
def sized (parsed : ParsedDecision) : Option ℚ :=
  data.sizePct.toFloatOrZero.map fun sizePct =>
    if sizePct ≤ 0 ∨ parsed.price ≤ 0 then parsed.qty
    else kellyQty sizePct world.book.cash parsed.qty parsed.price

/-- Minute of an order; a timestamp that is none is an exception. -/
def minute : Option String :=
  match data.timestamp with
  | none => some moment.utcMinute
  | some raw => config.utcMinute raw

def orderOf (parsed : ParsedDecision) : Option Order :=
  match sized world data parsed, moment.minute config data with
  | some qty, some minute =>
      some
        { symbol := parsed.symbol
          side := parsed.side
          qty := qty
          price := parsed.price
          strategyId := parsed.strategyId
          traceId := parsed.traceId
          signalConfidence := (extractDecisionScores data).1
          idempotencyKey :=
            buildIdempotencyKey config parsed.strategyId parsed.symbol parsed.side minute data }
  | _, _ => none

/-- What an admitted decision leaves. -/
def seenOrdered (parsed : ParsedDecision) : Seen :=
  match moment.orderOf config world data parsed with
  | some order => moment.seenSubmitted config data order world
  | none => world.seen

/-- What a delivery leaves, with the strategy id drawn for it. -/
def seenDelivered (strategyId : String) : Seen :=
  match parseDecisionFields strategyId "" data with
  | .ok parsed =>
      if !world.halted && moment.admits config world data then
        moment.seenOrdered config world data parsed
      else world.seen
  | .error _ => world.seen

variable {moment config world data}

theorem seenSubmitted_writeOnceCash :
    moment.seenSubmitted config data order (world.writeOnce .paperCash defaultPaperCash) =
      moment.seenSubmitted config data order world := by
  have known : moment.recorded (world.writeOnce .paperCash defaultPaperCash) order.idempotencyKey =
      moment.recorded world order.idempotencyKey := by
    simp [recorded]
  have lock : (world.writeOnce .paperCash defaultPaperCash).redis (.orderLock order.symbol) =
      world.redis (.orderLock order.symbol) := by simp
  rw [seenSubmitted, seenSubmitted, known, lock, World.seen_writeOnceCash]

/-- Sizing looks at the cash, and raises where the size is no number. -/
theorem wp_applyKellySizing (parsed : ParsedDecision) (post : Except Failure ℚ → World → Prop)
    (failed : sized world data parsed = none → post (.error .valueError) world)
    (sizes : ∀ qty, sized world data parsed = some qty → ∀ after,
      after = world ∨ after = world.writeOnce .paperCash defaultPaperCash → post (.ok qty) after) :
    (applyKellySizing data parsed.qty parsed.price).wp moment.during post world := by
  rw [applyKellySizing, Program.bind_eq_bind, Program.wp_bind, wp_requireFloat]
  cases size : data.sizePct.toFloatOrZero with
  | none => exact failed (by rw [sized, size]; rfl)
  | some sizePct =>
      dsimp only
      rw [Program.andThen_ok]
      split
      · rename_i nominal
        exact sizes _ (by rw [sized, size, Option.map_some, if_pos nominal]) _ (Or.inl rfl)
      · rename_i kelly
        simp only [Program.bind_eq_bind, Program.wp_bind, Program.wp_attempt, wp_getCash,
          Program.andThen_ok]
        exact sizes _ (by rw [sized, size, Option.map_some, if_neg kelly]) _ (Or.inr rfl)

theorem wp_parseTimestamp (post : Except Failure String → World → Prop) :
    (parseTimestamp config data).wp moment.during post world ↔
      match moment.minute config data with
      | some minute => post (.ok minute) world
      | none => post (.error .valueError) world := by
  rw [parseTimestamp, minute]
  cases data.timestamp with
  | none => exact wp_utcNow world post
  | some raw =>
      dsimp only
      cases config.utcMinute raw with
      | none => exact Iff.rfl
      | some minute => exact Iff.rfl

theorem wp_prepareOrder (post : Except Failure (Option Order) → World → Prop)
    (refused : moment.admits config world data = false →
      post (.error .valueError) world ∧ post (.ok none) world)
    (failed : ∀ strategyId traceId parsed, moment.ids strategyId →
      moment.admits config world data = true →
      parseDecisionFields strategyId traceId data = .ok parsed →
      moment.orderOf config world data parsed = none → ∀ after, after.seen = world.seen →
      post (.error .valueError) after)
    (ordered : ∀ strategyId traceId parsed, moment.ids strategyId →
      moment.admits config world data = true →
      parseDecisionFields strategyId traceId data = .ok parsed → ∀ order,
      moment.orderOf config world data parsed = some order → ∀ after,
      after = world ∨ after = world.writeOnce .paperCash defaultPaperCash →
      post (.ok (some order)) after) :
    (prepareOrder config data).wp moment.during post world := by
  rw [prepareOrder_eq]
  refine wp_gatesThen post refused fun admitted strategyId traceId parsed drawn accepted => ?_
  rw [Program.bind_eq_bind, Program.wp_bind]
  refine wp_applyKellySizing parsed _ (fun unsized => ?_) fun qty size after same => ?_
  · exact failed strategyId traceId parsed drawn admitted accepted (by rw [orderOf, unsized]) world
      rfl
  · rw [Program.andThen_ok, Program.bind_eq_bind, Program.wp_bind, wp_parseTimestamp]
    have unseen : after.seen = world.seen := by
      rcases same with rfl | rfl
      · rfl
      · exact World.seen_writeOnceCash world
    cases timed : moment.minute config data with
    | none =>
        exact failed strategyId traceId parsed drawn admitted accepted
          (by rw [orderOf, size, timed]) after unseen
    | some minute =>
        exact ordered strategyId traceId parsed drawn admitted accepted _
          (by rw [orderOf, size, timed]) after same

theorem seenDelivered_of_stopped {strategyId : String}
    (stopped : (!world.halted && moment.admits config world data) = false) :
    moment.seenDelivered config world data strategyId = world.seen := by
  rw [seenDelivered]
  split
  · rw [stopped, if_neg Bool.false_ne_true]
  · rfl

theorem seenOrdered_traceId (parsed : ParsedDecision) (traceId : String) :
    moment.seenOrdered config world data { parsed with traceId := traceId } =
      moment.seenOrdered config world data parsed := by
  have size : sized world data { parsed with traceId := traceId } = sized world data parsed := rfl
  rw [seenOrdered, seenOrdered, orderOf, orderOf, size]
  cases sized world data parsed with
  | none => rfl
  | some qty =>
      cases moment.minute config data with
      | none => rfl
      | some minute => rfl

theorem seenDelivered_of_admitted {strategyId traceId : String} {parsed : ParsedDecision}
    (running : world.halted = false) (admitted : moment.admits config world data = true)
    (accepted : parseDecisionFields strategyId traceId data = .ok parsed) :
    moment.seenDelivered config world data strategyId =
      moment.seenOrdered config world data parsed := by
  rw [parseDecisionFields_drawn] at accepted
  rw [seenDelivered, parseDecisionFields_drawn, running, admitted]
  cases base : parseDecisionFields "" "" data with
  | error reason =>
      rw [base] at accepted
      cases accepted
  | ok plain =>
      rw [base] at accepted
      cases accepted
      exact seenOrdered_traceId { plain with
        strategyId := orDefault data.strategyId strategyId
        traceId := orDefault data.traceId traceId } (orDefault data.traceId "")

/-- Either path, with its own way of submitting an order. -/
theorem wp_prepared (running : world.halted = false) {submit : Order → Engine Unit}
    (submits : ∀ order before (post : Except Failure Unit → World → Prop),
      (∀ outcome after, after.seen = moment.seenSubmitted config data order before →
        post outcome after) →
      (submit order).wp moment.during post before) :
    ((prepareOrder config data).bind fun prepared =>
      match prepared with
      | none => (pure () : Engine Unit)
      | some order => submit order).wp moment.during
      (fun _ after => ∃ strategyId, moment.ids strategyId ∧
        after.seen = moment.seenDelivered config world data strategyId) world := by
  obtain ⟨uuid, drawn⟩ := moment.drawn
  rw [Program.wp_bind]
  refine wp_prepareOrder _ (fun refused => ?_) (fun strategyId traceId parsed drawn admitted
    accepted unordered after same => ?_) fun strategyId traceId parsed drawn admitted accepted order
      ordered before same => ?_
  · have nothing : world.seen = moment.seenDelivered config world data uuid :=
      (seenDelivered_of_stopped (by rw [refused, Bool.and_false])).symm
    exact ⟨⟨uuid, drawn, nothing⟩, ⟨uuid, drawn, nothing⟩⟩
  · refine ⟨strategyId, drawn, ?_⟩
    rw [seenDelivered_of_admitted running admitted accepted, seenOrdered, unordered, same]
  · rw [Program.andThen_ok]
    refine submits order before _ fun outcome after submitted => ?_
    refine ⟨strategyId, drawn, ?_⟩
    rw [seenDelivered_of_admitted running admitted accepted, seenOrdered, ordered, submitted]
    rcases same with rfl | rfl
    · rfl
    · exact seenSubmitted_writeOnceCash

theorem wp_process :
    (process config data).wp moment.during
      (fun _ after => ∃ strategyId, moment.ids strategyId ∧
        after.seen = moment.seenDelivered config world data strategyId) world := by
  obtain ⟨uuid, drawn⟩ := moment.drawn
  have halts : world.halted = true → ∃ strategyId, moment.ids strategyId ∧
      world.seen = moment.seenDelivered config world data strategyId := by
    intro halted
    refine ⟨uuid, drawn, (seenDelivered_of_stopped ?_).symm⟩
    rw [halted, Bool.not_true, Bool.false_and]
  rw [process, Program.bind_eq_bind, Program.wp_bind, wp_redisGet, Program.andThen_ok]
  split
  · rename_i killed
    exact halts (by rw [World.halted, decide_eq_true killed, Bool.true_or])
  rename_i alive
  rw [Program.bind_eq_bind, Program.wp_bind, wp_redisGet, Program.andThen_ok]
  split
  · rename_i paused
    rw [Program.bind_eq_bind, Program.wp_bind, wp_redisGet]
    exact halts (by rw [World.halted, decide_eq_true paused, Bool.or_true])
  rename_i active
  have running : world.halted = false := by
    rw [World.halted, decide_eq_false alive, decide_eq_false active, Bool.or_false]
  rw [Program.bind_eq_bind, Program.wp_bind, wp_isDbAvailable, Program.andThen_ok]
  split
  · rename_i database
    exact wp_prepared running fun order before post => wp_submitWithDb database post
  · rename_i memory
    rw [Bool.not_eq_true] at memory
    exact wp_prepared running fun order before post => wp_submitInMemory memory post

end Moment

end TradingControl
