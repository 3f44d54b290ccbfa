import TradingControl.Execution.InFlight
import TradingControl.Execution.LongOnly

/-!
# Stranded flags

What fails between the raised flag and the end of the bookkeeping decides whether the flag comes
down and whether the outcome of the fill is pushed, on the database path, on the path after a failed
transaction and on the in-memory path.
-/

namespace TradingControl

open Effects Python Engine

namespace InFlight

/-! ## Where a run ends -/

/-- The flag is down and the outcome of a fill is pushed. -/
def Settled (config : Config) (before after : World) : Prop :=
  after.redis .inFlightOrder = none ∧ OutcomePushed config before after

/-- What a run leaves behind, by how far its order has come. -/
def Verdict (config : Config) (data : Decision) (before : World) : World × Flight → Prop
  | (after, .grounded) => after.submitted = before.submitted
  | (after, .inFlight) =>
      if data.decisionCostUsd.toFloatOrZero = none then after.redis .inFlightOrder = some "1"
      else Settled config before after
  | (after, .landed) => Settled config before after
  | (after, .lost) => after.redis .inFlightOrder = some "1"

section Paths

variable {config : Config} {data : Decision} {before : World}

theorem Settled.kept {world after : World} (settled : Settled config before world)
    (kept : Kept world after) : Settled config before after := by
  refine ⟨kept.flag.trans settled.1, fun order fillPrice now submitted book moved => ?_⟩
  rw [kept.outcomes]
  exact settled.2 order fillPrice now (kept.submitted ▸ submitted) (kept.book ▸ book) moved

theorem Verdict.kept {world after : World} {flight : Flight}
    (verdict : Verdict config data before (world, flight)) (kept : Kept world after) :
    Verdict config data before (after, flight) := by
  cases flight with
  | grounded => exact kept.submitted.trans verdict
  | inFlight =>
      rw [Verdict] at verdict ⊢
      split_ifs at verdict ⊢
      · exact kept.flag.trans verdict
      · exact verdict.kept kept
  | landed => exact Settled.kept verdict kept
  | lost => exact kept.flag.trans verdict

/-- World in which an order has been filled with the flag up. -/
structure Filled (before : World) (order : Submission) (fillPrice : ℚ) (now : String)
    (filled : World) : Prop where
  submitted : filled.submitted = before.submitted ++ [order]
  book : filled.book = before.book.fill order.symbol order.side order.qty fillPrice now
  flag : filled.redis .inFlightOrder = some "1"
  outcomes : filled.redis .recentOutcomes = before.redis .recentOutcomes

theorem Filled.kept {order : Submission} {fillPrice : ℚ} {now : String} {filled after : World}
    (fill : Filled before order fillPrice now filled) (kept : Kept filled after) :
    Filled before order fillPrice now after where
  submitted := kept.submitted.trans fill.submitted
  book := kept.book.trans fill.book
  flag := kept.flag.trans fill.flag
  outcomes := kept.outcomes.trans fill.outcomes

theorem filled_fill {world : World} (start : Kept before world) (order : Submission)
    (fillPrice : ℚ) (now brokerOrderId : String) :
    Filled before order fillPrice now
      ((world.write .inFlightOrder "1").fill order fillPrice now brokerOrderId) := by
  have book : (world.write .inFlightOrder "1").book = world.book :=
    World.book_congr (by simp) (by simp)
  refine ⟨?_, ?_, ?_, ?_⟩
  · simp [World.fill, start.submitted]
  · rw [World.book_fill, book, start.book]
  · simp [World.fill]
  · simp [World.fill, start.outcomes]

theorem Filled.settled {order : Submission} {fillPrice : ℚ} {filled after : World}
    {now : String} (fill : Filled before order fillPrice now filled)
    (recorded : Recorded (computeRealizedPnl config.round8 (before.book.position order.symbol)
      order.side order.qty fillPrice) filled after) :
    Settled config before after := by
  refine ⟨recorded.flag, fun order' fillPrice' now' submitted' book' moved => ?_⟩
  obtain rfl : order = order' := by
    rw [recorded.submitted, fill.submitted] at submitted'
    simpa using submitted'
  obtain rfl : fillPrice = fillPrice' := by
    rw [recorded.book, fill.book] at book'
    have price := congrArg (fun book => (book.position order.symbol).currentPrice) book'
    simpa using price
  rw [recorded.outcomes moved, fill.outcomes]

/-- The in-memory path under the lock. -/
theorem wp_executeInMemory {order : Order} {orderId : String} {world : World}
    (start : Kept before world) :
    (executeInMemory config data order orderId).wp observed
      (fun _ => Verdict config data before) (world, .grounded) := by
  rw [executeInMemory]
  rw [Program.bind_eq_bind, Program.wp_bind]
  simp only [PaperBroker.getPosition, Program.bind_eq_bind, Program.wp_bind, observed_redisGet,
    Program.andThen_ok, Program.andThen_error, Program.pure_eq_ret, Program.wp_ret]
  refine ⟨fun _ => start.submitted, ?_⟩
  have held : (world.redis (.paperPosition order.symbol)).getD flatPosition =
      before.book.position order.symbol := by
    rw [← start.book]
    rfl
  rw [held]
  cases admitted : admission config.settings order.side order.qty
      (before.book.position order.symbol) with
  | rejectSell =>
      exact wp_of_mild_still (mild_bind (mild_runtimeStore _) fun _ => mild_publish _) rfl start
        fun _ after kept => kept.submitted
  | rejectBuy => exact start.submitted
  | submit qty =>
      dsimp only
      rw [Program.wp_bind, observed_setInFlight, Program.andThen_ok, Program.wp_bind]
      have flag : (world.write .inFlightOrder "1").redis .inFlightOrder = some "1" :=
        World.write_redis_self ..
      refine wp_placeOrder_inFlight config.round8
        { symbol := order.symbol, side := order.side, qty := qty, price := order.price } _ _
        (fun after kept => kept.trans flag) fun slippage now brokerOrderId => ?_
      rw [Program.andThen_ok, Program.wp_bind]
      have fill := filled_fill start
        { symbol := order.symbol, side := order.side, qty := qty, price := order.price }
        (slippedPrice config.round8 order.side order.price slippage) now brokerOrderId
      refine wp_recordFill_inFlight _ _ _ _ _ _ _ _ _ (fun unpriced => ?_)
        (fun after kept => (fill.kept kept).flag) fun ctx after priced kept pnl => ?_
      · rw [Program.andThen_error, Verdict, if_pos unpriced]
        exact fill.flag
      · rw [Program.andThen_ok]
        refine wp_recordOutcome_clearInFlight ctx.realizedPnl after .inFlight _
          fun final recorded => ?_
        rw [Verdict, if_neg priced]
        rw [pnl] at recorded
        exact (fill.kept kept).settled recorded

/-- The in-memory path from the idempotency key on. -/
theorem wp_submitInMemory {order : Order} {world : World} (start : Kept before world) :
    (submitInMemory config data order).wp observed (fun _ => Verdict config data before)
      (world, .grounded) := by
  have guarded : ∀ (command : KeyValue.Command Key.Value) (world : World),
      (∃ symbol, command.key = .orderLock symbol ∨ command.key = .orderDedup symbol) →
      Kept world { world with redis := command.apply world.redis } :=
    fun command world guard => Kept.of_guard world command guard
  simp only [submitInMemory, Program.bind_eq_bind, Program.wp_bind, observed_redisSetnx,
    Program.andThen_ok]
  refine ⟨fun broker => broker.elim, ?_⟩
  have claimed := start.trans
    (guarded (.setnx (.orderDedup order.idempotencyKey) "1") world ⟨_, Or.inr rfl⟩)
  split
  case isFalse => exact claimed.submitted
  simp only [Program.wp_bind, observed_uuid4, observed_redisSetnx, Program.andThen_ok]
  intro orderId lockValue
  refine ⟨fun broker => broker.elim, ?_⟩
  have locked := claimed.trans (guarded (.setnx (.orderLock order.symbol) lockValue) _
    ⟨_, Or.inl rfl⟩)
  split
  case isFalse => exact locked.submitted
  rw [Program.wp_tryFinally]
  refine Program.wp_mono observed_monotone (fun outcome state verdict => ?_)
    (wp_executeInMemory locked)
  rw [observed_redisDelete, Program.andThen_ok]
  exact ⟨fun broker => broker.elim,
    verdict.kept (guarded (.delete (.orderLock order.symbol)) _ ⟨_, Or.inl rfl⟩)⟩

theorem wp_processInMemory {world : World} (start : Kept before world) :
    (processInMemory config data).wp observed (fun _ => Verdict config data before)
      (world, .grounded) := by
  apply wp_bind_mild (mild_prepareOrder config data) rfl start
  · exact fun _ after kept => kept.submitted
  intro prepared after kept
  cases prepared with
  | none => exact kept.submitted
  | some order => exact wp_submitInMemory kept

/-- The raised flag is seen. -/
theorem wp_inFlightGate_flagged {world : World} {flight : Flight}
    (flag : world.redis .inFlightOrder = some "1")
    {post : Except Failure (Option GateReason) → World × Flight → Prop}
    (blocked : post (.ok (some .inFlight)) (world, flight)) :
    inFlightGate.wp observed post (world, flight) := by
  simp only [inFlightGate, Program.bind_eq_bind, Program.wp_bind, Program.wp_attempt,
    observed_redisGet, Program.andThen_ok, flag]
  exact ⟨fun broker => broker.elim, blocked⟩

/-- With the flag up no decision gets past the gates. -/
theorem wp_evaluatePreExecutionGates_flagged {side symbol : String}
    {signalConfidence reasoningScore absPctMove : ℚ} {atr : Option ℚ} {origin world : World}
    {flight : Flight} (still : flight.fail = flight) (start : Kept origin world)
    (flag : origin.redis .inFlightOrder = some "1")
    {post : Except Failure (Option GateReason) → World × Flight → Prop}
    (raised : ∀ error after, Kept origin after → post (.error error) (after, flight))
    (blocked : ∀ reason after, Kept origin after → post (.ok (some reason)) (after, flight)) :
    (evaluatePreExecutionGates config side symbol signalConfidence reasoningScore atr
      absPctMove).wp observed post (world, flight) := by
  apply wp_bind_mild (mild_isMarketOpen _ _) still start raised
  intro marketOpen opened kept
  apply wp_bind_mild (mild_decisionThreshold _ _ _) still kept raised
  intro threshold read kept
  dsimp only
  split
  · next reason _ => exact blocked reason read kept
  apply wp_bind_mild (mild_noTradeWindowGate _ _) still kept raised
  intro window after kept
  cases window with
  | some reason => exact blocked reason after kept
  | none =>
      dsimp only
      rw [Program.bind_eq_bind, Program.wp_bind]
      exact wp_inFlightGate_flagged (kept.flag.trans flag) (blocked .inFlight after kept)

theorem wp_prepareOrder_flagged {origin : World} {flight : Flight} (still : flight.fail = flight)
    (flag : origin.redis .inFlightOrder = some "1")
    {post : Except Failure (Option Order) → World × Flight → Prop}
    (raised : ∀ error after, Kept origin after → post (.error error) (after, flight))
    (dropped : ∀ after, Kept origin after → post (.ok none) (after, flight)) :
    (prepareOrder config data).wp observed post (origin, flight) := by
  apply wp_bind_mild (mild_parseAndValidate _ _) still (.refl origin) raised
  intro validated parsedAt kept
  cases validated with
  | none => exact dropped parsedAt kept
  | some parsed =>
      apply wp_bind_mild (mild_atrRegimeRatio _) still kept raised
      intro atr atrAt kept
      apply wp_bind_mild (mild_requireFloat _) still kept raised
      intro pct pctAt kept
      rw [Program.bind_eq_bind, Program.wp_bind]
      exact wp_evaluatePreExecutionGates_flagged still kept flag raised
        fun reason after kept => dropped after kept

/-- The fallback after a failed broker call meets the flag its own order raised. -/
theorem wp_processInMemory_lost {world : World} (flag : world.redis .inFlightOrder = some "1") :
    (processInMemory config data).wp observed (fun _ => Verdict config data before)
      (world, .lost) := by
  rw [processInMemory]
  rw [Program.bind_eq_bind, Program.wp_bind]
  exact wp_prepareOrder_flagged rfl flag (fun _ after kept => kept.flag.trans flag)
    fun after kept => kept.flag.trans flag

/-! ### Database path -/

/-- What the database path has done when the broker has answered. -/
def Placed (before : World) (order : Order) : Except Failure Placement → World × Flight → Prop
  | .error _, (after, .grounded) => Kept before after
  | .error _, (after, .lost) => after.redis .inFlightOrder = some "1"
  | .ok .rejected, (after, .grounded) => Kept before after
  | .ok (.filled _ qty receipt _), (after, .inFlight) => ∃ now,
      Filled before { symbol := order.symbol, side := order.side, qty := qty, price := order.price }
        receipt.fillPrice now after
  | _, _ => False

theorem wp_placeWithDb {order : Order} {world : World} (start : Kept before world) :
    (placeWithDb config order (before.book.position order.symbol)).wp observed
      (Placed before order) (world, .grounded) := by
  rw [placeWithDb]
  cases admitted : admission config.settings order.side order.qty
      (before.book.position order.symbol) with
  | rejectSell =>
      apply wp_bind_mild (mild_insertRejectedOrderOnce ..) rfl start fun _ after kept => kept
      rintro ⟨orderId, created, session⟩ after kept
      dsimp only
      rw [Program.bind_eq_bind, Program.wp_bind, observed_database]
      have committed : Kept before { after with db := after.db.view session } :=
        kept.trans ⟨rfl, rfl, rfl, rfl⟩
      refine ⟨kept, ?_⟩
      cases created with
      | false => exact committed
      | true =>
          exact wp_bind_mild (mild_publish _) rfl committed (fun _ after kept => kept)
            fun _ after kept => kept
  | rejectBuy => exact start
  | submit qty =>
      have pending : (OrderWriter.insertPendingOrder [] order.strategyId order.symbol order.side
          qty order.price order.idempotencyKey "pending").Mild :=
        mild_bind (mild_database _ (by simp)) fun _ => mild_ret _
      apply wp_bind_mild pending rfl start fun _ after kept => kept
      rintro ⟨orderId, session⟩ inserted kept
      apply wp_bind_mild (mild_database _ (by simp)) rfl kept fun _ after kept => kept
      intro _ flushed kept
      rw [Program.bind_eq_bind, Program.wp_bind, observed_setInFlight, Program.andThen_ok,
        Program.bind_eq_bind, Program.wp_bind]
      refine wp_placeOrder_inFlight config.round8
        { symbol := order.symbol, side := order.side, qty := qty, price := order.price } _ _
        (fun after kept => kept.trans (World.write_redis_self ..)) fun slippage now id => ?_
      exact ⟨now, filled_fill kept _ _ now id⟩

/-- What the database path has done when it has committed a fill, or failed to. -/
def Committed (config : Config) (before : World) : Except Failure Unit → World × Flight → Prop
  | .error _, (after, .lost) => after.redis .inFlightOrder = some "1"
  | .ok _, (after, .landed) => Settled config before after
  | _, _ => False

/-- A statement with an order in flight, other than `COMMIT`. -/
theorem wp_statement_inFlight {session : Session} {statement : Statement} {world : World}
    (open_ : statement ≠ .commit)
    (answers : ∃ answer, (statement.run session world.db).1 = .ok answer)
    {post : Except Failure statement.Answer → World × Flight → Prop}
    (lost : post (.error .databaseError) (world, .lost))
    (answered : ∀ answer after, Kept world after → post (.ok answer) (after, .inFlight)) :
    Program.wp (α := no_index statement.Answer) observed (database session statement) post
      (world, .inFlight) := by
  rw [observed_database]
  refine ⟨lost, ?_⟩
  obtain ⟨answer, answer_eq⟩ := answers
  have passed : Flight.inFlight.pass (.database session statement) = .inFlight :=
    pass_of_mild _ (by cases statement <;> first | exact absurd rfl open_ | trivial)
  rw [answer_eq, passed]
  exact answered answer _ ⟨rfl, rfl, rfl, rfl⟩

theorem wp_commit_inFlight {session : Session} {world : World}
    {post : Except Failure Unit → World × Flight → Prop}
    (lost : post (.error .databaseError) (world, .lost))
    (committed : ∀ after, Kept world after → post (.ok ()) (after, .landed)) :
    Program.wp (α := no_index Unit) observed (database session .commit) post (world, .inFlight) :=
  (observed_database world .inFlight session .commit post).mpr
    ⟨lost, committed _ ⟨rfl, rfl, rfl, rfl⟩⟩

theorem wp_upsertPositionDb_inFlight {round8 : ℚ → ℚ} {session : Session}
    {strategyId symbol side : String} {qty fillPrice : ℚ} {avgCost : Option ℚ} {world : World}
    {post : Except Failure Session → World × Flight → Prop}
    (lost : ∀ after, Kept world after → post (.error .databaseError) (after, .lost))
    (upserted : ∀ session after, Kept world after → post (.ok session) (after, .inFlight)) :
    (OrderWriter.upsertPositionDb round8 session strategyId symbol side qty fillPrice avgCost).wp
      observed post (world, .inFlight) := by
  rw [OrderWriter.upsertPositionDb]
  rw [Program.bind_eq_bind, Program.wp_bind]
  refine wp_statement_inFlight (by simp) ⟨_, rfl⟩ (lost _ (.refl world)) fun found after kept => ?_
  rw [Program.andThen_ok]
  cases found with
  | none =>
      dsimp only
      rw [Program.bind_eq_bind, Program.wp_bind]
      exact wp_statement_inFlight (by simp) ⟨_, rfl⟩ (lost _ kept)
        fun _ final kept' => upserted _ _ (kept.trans kept')
  | some row =>
      dsimp only
      rw [Program.bind_eq_bind, Program.wp_bind]
      exact wp_statement_inFlight (by simp) ⟨_, rfl⟩ (lost _ kept)
        fun _ final kept' => upserted _ _ (kept.trans kept')

/-- A statement or a broker call that fails before `COMMIT` leaves the flag up. -/
theorem wp_commitFill {order : Order} {orderId : ℕ} {qty : ℚ} {receipt : BrokerOrder}
    {session : Session} {now : String} {world : World}
    (fill : Filled before
      { symbol := order.symbol, side := order.side, qty := qty, price := order.price }
      receipt.fillPrice now world) :
    (commitFill config order (before.book.position order.symbol) orderId qty receipt session).wp
      observed (Committed config before) (world, .inFlight) := by
  have lost : ∀ raised {after : World}, Kept world after →
      Committed config before (.error raised) (after, .lost) :=
    fun _ _ kept => kept.flag.trans fill.flag
  simp only [commitFill, OrderWriter.updateOrderFill, OrderWriter.insertAuditLog,
    PaperBroker.getPosition, Program.bind_eq_bind, Program.bind_assoc, Program.pure_eq_ret,
    Program.ret_bind]
  -- named, so that no step evaluates it
  generalize moved : computeRealizedPnl config.round8 (before.book.position order.symbol) order.side
    qty receipt.fillPrice = realizedPnl
  rw [Program.wp_bind]
  refine wp_statement_inFlight (by simp) ⟨_, rfl⟩ (lost .databaseError (.refl world))
    fun _ updated kept => ?_
  rw [Program.andThen_ok, Program.wp_bind, observed_redisGet]
  refine ⟨fun _ => lost .redisError kept, ?_⟩
  rw [Program.andThen_ok, Program.wp_bind]
  refine wp_upsertPositionDb_inFlight
    (fun after kept' => lost .databaseError (kept.trans kept')) fun session upserted kept' => ?_
  have kept := kept.trans kept'
  rw [Program.andThen_ok, Program.wp_bind]
  refine wp_statement_inFlight (by simp) ⟨_, rfl⟩ (lost .databaseError kept)
    fun _ logged kept' => ?_
  have kept := kept.trans kept'
  rw [Program.andThen_ok, Program.wp_bind]
  refine wp_commit_inFlight (lost .databaseError kept) fun committed kept' => ?_
  rw [Program.andThen_ok]
  refine wp_recordOutcome_clearInFlight realizedPnl committed .landed (Committed config before)
    fun final recorded => ?_
  rw [← moved] at recorded
  exact (fill.kept (kept.trans kept')).settled recorded

/-- What the `try` block of the database path has done. -/
def Executed (config : Config) (data : Decision) (before : World) :
    Except Failure DbOutcome → World × Flight → Prop
  | .ok .rejected, (after, .grounded) => Kept before after
  | .ok (.failed none), (after, .grounded) => Kept before after
  | .ok (.failed _), (after, .lost) => after.redis .inFlightOrder = some "1"
  | .ok (.committed _ _ _), (after, .landed) => Settled config before after
  | .error _, state => Verdict config data before state
  | _, _ => False

theorem Executed.kept {outcome : Except Failure DbOutcome} {world after : World} {flight : Flight}
    (executed : Executed config data before outcome (world, flight)) (kept : Kept world after) :
    Executed config data before outcome (after, flight) := by
  cases outcome with
  | error raised => exact Verdict.kept executed kept
  | ok outcome =>
      cases outcome with
      | rejected =>
          cases flight with
          | grounded => exact Kept.trans executed kept
          | _ => exact False.elim executed
      | committed orderId qty receipt =>
          cases flight with
          | landed => exact Settled.kept executed kept
          | _ => exact False.elim executed
      | failed filled =>
          cases flight with
          | lost =>
              cases filled with
              | none => exact kept.flag.trans executed
              | some fill => exact kept.flag.trans executed
          | grounded =>
              cases filled with
              | none => exact Kept.trans executed kept
              | some fill => exact False.elim executed
          | _ => cases filled <;> exact False.elim executed

theorem wp_executeWithDb {order : Order} {world : World} (start : Kept before world) :
    (executeWithDb config order (before.book.position order.symbol)).wp observed
      (Executed config data before) (world, .grounded) := by
  rw [executeWithDb]
  rw [Program.bind_eq_bind, Program.wp_bind, Program.wp_attempt]
  refine Program.wp_mono observed_monotone ?_ (wp_placeWithDb start)
  rintro outcome ⟨after, flight⟩ placed
  rw [Program.andThen_ok]
  cases outcome with
  | error raised =>
      dsimp only
      rw [Program.bind_eq_bind, Program.wp_bind, observed_database]
      cases flight with
      | grounded => exact ⟨placed.submitted, placed⟩
      | lost => exact ⟨placed, placed⟩
      | _ => exact False.elim placed
  | ok placement =>
      cases placement with
      | rejected =>
          cases flight with
          | grounded => exact placed
          | _ => exact False.elim placed
      | filled orderId qty receipt session =>
          cases flight with
          | inFlight =>
              obtain ⟨now, fill⟩ := placed
              dsimp only
              rw [Program.bind_eq_bind, Program.wp_bind, Program.wp_attempt]
              refine Program.wp_mono observed_monotone ?_ (wp_commitFill fill)
              rintro outcome ⟨after, flight⟩ committed
              rw [Program.andThen_ok]
              cases outcome with
              | error raised =>
                  cases flight with
                  | lost =>
                      dsimp only
                      rw [Program.bind_eq_bind, Program.wp_bind, observed_database]
                      exact ⟨committed, committed⟩
                  | _ => exact False.elim committed
              | ok _ =>
                  cases flight with
                  | landed => exact committed
                  | _ => exact False.elim committed
          | _ => exact False.elim placed

/-- A failed transaction is rerun in memory, or the fill it made is recorded there. -/
theorem wp_handleDbFailure {order : Order} {prior : Position}
    {filled : Option (ℚ × BrokerOrder)} {after : World} {flight : Flight}
    (executed : Executed config data before (.ok (.failed filled)) (after, flight)) :
    (handleDbFailure config data order prior filled).wp observed
      (fun _ => Verdict config data before) (after, flight) := by
  cases filled with
  | none =>
      cases flight with
      | grounded => exact wp_processInMemory executed
      | lost => exact wp_processInMemory_lost executed
      | _ => exact False.elim executed
  | some fill =>
      cases flight with
      | lost =>
          have recorded : (handleDbFailure config data order prior (some fill)).Mild :=
            mild_bind mild_uuid4 fun _ => mild_bind (mild_recordFill ..) fun _ => mild_ret _
          exact wp_of_mild_still recorded rfl (.refl after)
            fun _ final kept => kept.flag.trans executed
      | _ => exact False.elim executed

theorem wp_submitWithDb {order : Order} {world : World} (start : Kept before world) :
    (submitWithDb config data order).wp observed (fun _ => Verdict config data before)
      (world, .grounded) := by
  apply wp_bind_mild mild_uuid4 rfl start fun _ after kept => kept.submitted
  intro lockValue drawn kept
  apply wp_bind_mild (mild_database _ (by simp)) rfl kept fun _ after kept => kept.submitted
  intro found selected kept
  cases found with
  | some row => exact kept.submitted
  | none =>
      dsimp only
      rw [Program.bind_eq_bind, Program.wp_bind, observed_redisSetnx]
      refine ⟨fun broker => broker.elim, ?_⟩
      have locked := kept.trans (Kept.of_guard selected
        (.setnx (.orderLock order.symbol) lockValue) ⟨_, Or.inl rfl⟩)
      rw [Program.andThen_ok]
      split
      case isFalse => exact locked.submitted
      simp only [PaperBroker.getPosition, Program.bind_eq_bind, Program.bind_assoc, Program.wp_bind,
        observed_redisGet, Program.andThen_ok, Program.andThen_error, Program.pure_eq_ret,
        Program.wp_ret]
      refine ⟨fun _ => locked.submitted, ?_⟩
      have held : ((selected.writeOnce (.orderLock order.symbol) lockValue).redis
          (.paperPosition order.symbol)).getD flatPosition = before.book.position order.symbol := by
        rw [← locked.book]
        rfl
      rw [held, Program.wp_tryFinally]
      have submission : (executeWithDb config order (before.book.position order.symbol)).wp observed
          (Executed config data before) _ := wp_executeWithDb locked
      refine Program.wp_mono observed_monotone ?_ submission
      rintro outcome ⟨after, flight⟩ executed
      rw [observed_redisDelete, Program.andThen_ok]
      refine ⟨fun broker => broker.elim, ?_⟩
      have executed := executed.kept (Kept.of_guard after (.delete (.orderLock order.symbol))
        ⟨_, Or.inl rfl⟩)
      cases outcome with
      | error raised => exact executed
      | ok outcome =>
          rw [Program.andThen_ok]
          cases outcome with
          | rejected =>
              cases flight with
              | grounded => exact Kept.submitted executed
              | _ => exact False.elim executed
          | failed filled => exact wp_handleDbFailure executed
          | committed orderId qty receipt =>
              cases flight with
              | landed =>
                  exact wp_of_mild_still (mild_publishCommitted ..) rfl (.refl _)
                    fun _ final kept => Settled.kept executed kept
              | _ => exact False.elim executed

theorem wp_process (config : Config) (data : Decision) (before : World) :
    (process config data).wp observed (fun _ => Verdict config data before)
      (before, .grounded) := by
  have idle : ∀ error after, Kept before after →
      (fun (_ : Except Failure Unit) => Verdict config data before) (.error error)
        (after, .grounded) := fun _ after kept => kept.submitted
  apply wp_bind_mild (mild_redisGet _) rfl (.refl before) idle
  intro killSwitch killedAt kept
  split
  · exact kept.submitted
  apply wp_bind_mild (mild_redisGet _) rfl kept idle
  intro paused pausedAt kept
  split
  · exact wp_bind_mild (mild_redisGet _) rfl kept idle fun _ after kept => kept.submitted
  apply wp_bind_mild mild_isDbAvailable rfl kept idle
  intro available checked kept
  split
  · apply wp_bind_mild (mild_prepareOrder config data) rfl kept idle
    intro prepared after kept
    cases prepared with
    | none => exact kept.submitted
    | some order => exact wp_submitWithDb kept
  · exact wp_processInMemory kept

end Paths

/-! ## Every run -/

/-- World and observation at the end of a run. -/
def finish (config : Config) (data : Decision) (choices : ℕ → Choice) (before : World) :
    World × Flight :=
  (((process config data).exec engineHandler choices before).2,
    (process config data).observe engineHandler Flight.observe choices before .grounded)

/-- No order took off; or its fill was committed; or nothing failed after the take-off, and the
fill is recorded in memory with a cost that is a number. -/
def Smooth (data : Decision) : Flight → Prop
  | .grounded => True
  | .inFlight => data.decisionCostUsd.toFloatOrZero ≠ none
  | .landed => True
  | .lost => False

instance (data : Decision) : (flight : Flight) → Decidable (Smooth data flight)
  | .grounded => .isTrue trivial
  | .inFlight => inferInstanceAs (Decidable (_ ≠ _))
  | .landed => .isTrue trivial
  | .lost => .isFalse id

/-- A run lowers the flag it raised and pushes the outcome of its fill exactly where it is
smooth. -/
theorem process_settled_iff (config : Config) (data : Decision) (choices : ℕ → Choice)
    (before : World)
    (healthy : (process config data).Permits engineHandler Healthy choices before) :
    FlagLowered (finish config data choices before).2 (finish config data choices before).1 ∧
        OutcomePushed config before (finish config data choices before).1 ↔
      Smooth data (finish config data choices before).2 := by
  have verdict : Verdict config data before (finish config data choices before) :=
    Handler.exec_of_observed (wp_process config data before) healthy
  generalize finish config data choices before = final at verdict ⊢
  obtain ⟨after, flight⟩ := final
  cases flight with
  | grounded =>
      refine iff_of_true ⟨fun raised => absurd rfl raised, fun order _ _ submitted => ?_⟩ trivial
      rw [show after.submitted = before.submitted from verdict] at submitted
      simp at submitted
  | inFlight =>
      by_cases unpriced : data.decisionCostUsd.toFloatOrZero = none
      · rw [Verdict, if_pos unpriced] at verdict
        refine iff_of_false (fun settled => ?_) fun priced => priced unpriced
        have lowered := settled.1 (by simp)
        rw [verdict] at lowered
        cases lowered
      · rw [Verdict, if_neg unpriced] at verdict
        exact iff_of_true ⟨fun _ => verdict.1, verdict.2⟩ unpriced
  | landed => exact iff_of_true ⟨fun _ => verdict.1, verdict.2⟩ trivial
  | lost =>
      refine iff_of_false (fun settled => ?_) id
      have lowered := settled.1 (by simp)
      rw [show after.redis .inFlightOrder = some "1" from verdict] at lowered
      cases lowered

/-- One bitcoin is held, bought at 90. -/
def heldWorld : World where
  redis
    | .paperPosition "BTC/USD" =>
        some
          { side := "long"
            qty := 1
            entryPrice := 90
            currentPrice := 90
            openedAt := none }
    | _ => none

/-- With no failure the sale is smooth. -/
theorem sale_settled :
    FlagLowered (finish {} (bitcoinDecision "sell") (fun _ => {}) heldWorld).2
        (finish {} (bitcoinDecision "sell") (fun _ => {}) heldWorld).1 ∧
      OutcomePushed {} heldWorld (finish {} (bitcoinDecision "sell") (fun _ => {}) heldWorld).1 :=
  (process_settled_iff {} (bitcoinDecision "sell") (fun _ => {}) heldWorld
    (Program.permits_of_forall _ _ fun _ op => by cases op <;> simp [Healthy])).mpr
      (by decide +kernel)

/-- `COMMIT` fails after the broker has sold, and the flag stays up. -/
theorem failed_commit_strands_flag :
    (process {} (bitcoinDecision "sell")).Permits engineHandler Healthy
        (fun n => { dbFails := n = 30 }) heldWorld ∧
      ¬(FlagLowered
          (finish {} (bitcoinDecision "sell") (fun n => { dbFails := n = 30 }) heldWorld).2
          (finish {} (bitcoinDecision "sell") (fun n => { dbFails := n = 30 }) heldWorld).1 ∧
        OutcomePushed {} heldWorld
          (finish {} (bitcoinDecision "sell") (fun n => { dbFails := n = 30 }) heldWorld).1) := by
  refine ⟨Program.permits_of_forall _ _ fun _ op => by cases op <;> simp [Healthy], ?_⟩
  rintro ⟨lowered, -⟩
  have raised : (finish {} (bitcoinDecision "sell") (fun n => { dbFails := n = 30 })
      heldWorld).2 ≠ .grounded := by
    decide +kernel
  have stranded : (finish {} (bitcoinDecision "sell") (fun n => { dbFails := n = 30 })
      heldWorld).1.redis .inFlightOrder ≠ none := by
    decide +kernel
  exact stranded (lowered raised)

end InFlight

end TradingControl
