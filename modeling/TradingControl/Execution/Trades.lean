import TradingControl.Execution.Quiet

/-!
# What one delivery does

A delivery either leaves book and tables alone, or places one admitted order, undisturbed, with or
without its rows committed, or is torn by a Redis failure before anything is committed.  This is the
only place where the engine's programs are read operation by operation for their effect on the book.
-/

namespace TradingControl

open Effects Python Engine

/-! ## Decisions that become orders -/

/-- Kelly quantity of a decision, or its nominal one. -/
def sizedQty (sizePct cash nominalQty price : ℚ) : ℚ :=
  if sizePct ≤ 0 ∨ price ≤ 0 then nominalQty else kellyQty sizePct cash nominalQty price

/-- The fallback guard lets a parsed decision through. -/
structure FallbackPasses (settings : Settings) (data : Decision) (parsed : ParsedDecision)
    (book : Book) : Prop where
  allowed : fallbackGuarded settings data (lower parsed.side) = true →
    settings.allowFallbackTrades = true
  small : fallbackGuarded settings data (lower parsed.side) = true →
    parsed.qty ≤ settings.maxFallbackOrderQty
  exposure : fallbackGuarded settings data (lower parsed.side) = true →
    fallbackExposureBlocked settings (lower parsed.side) parsed.qty
      (signedPositionQty (book.position parsed.symbol)) = false

/-- A decision that validation, guard and gates let through, and the order made of it. -/
structure Prepared (faults : Prop) (config : Config) (data : Decision) (book : Book)
    (parsed : ParsedDecision) (order : Order) : Prop where
  accepted : ∃ strategyId traceId, parseDecisionFields strategyId traceId data = .ok parsed
  unblocked : FallbackPasses config.settings data parsed book
  tradable : isNoOrderAction parsed.side = false
  sized : (∃ sizePct, data.sizePct.toFloatOrZero = some sizePct ∧
      order.qty = sizedQty sizePct book.cash parsed.qty parsed.price) ∨
    faults ∧ order.qty = parsed.qty
  symbol : order.symbol = parsed.symbol
  side : order.side = parsed.side
  price : order.price = parsed.price
  strategyId : order.strategyId = parsed.strategyId

variable {faults : Prop} {config : Config} {data : Decision} {origin world : World}

theorem sizedQty_pos {sizePct cash nominalQty price : ℚ} (positive : 0 < nominalQty) :
    0 < sizedQty sizePct cash nominalQty price := by
  rw [sizedQty, kellyQty]
  split_ifs <;> assumption

namespace Prepared

variable {book : Book} {parsed : ParsedDecision} {order : Order}

theorem qty_pos (prepared : Prepared faults config data book parsed order) : 0 < order.qty := by
  obtain ⟨strategyId, traceId, accepted⟩ := prepared.accepted
  have positive := (parseDecisionFields_pos accepted).1
  rcases prepared.sized with ⟨sizePct, -, sized⟩ | ⟨-, nominal⟩
  · rw [sized]
    exact sizedQty_pos positive
  · rwa [nominal]

/-- Without Redis faults the order is sized from the book's cash. -/
theorem sizedQty_eq (prepared : Prepared False config data book parsed order) :
    ∃ sizePct, data.sizePct.toFloatOrZero = some sizePct ∧
      order.qty = sizedQty sizePct book.cash parsed.qty parsed.price := by
  rcases prepared.sized with sized | ⟨impossible, -⟩
  · exact sized
  · exact impossible.elim

theorem side_eq (prepared : Prepared faults config data book parsed order) :
    order.side = data.sideOrAction := by
  obtain ⟨strategyId, traceId, accepted⟩ := prepared.accepted
  rw [prepared.side]
  exact (parseDecisionFields_fields accepted).2.1

/-- The broker reads the side as the guards do: it is in lower case already. -/
theorem direction_eq (prepared : Prepared faults config data book parsed order) :
    direction order.side = if isBuy order.side then 1 else -1 := by
  have lowered : lower order.side = order.side := by
    rw [prepared.side_eq, Decision.sideOrAction, lower_lower]
  rw [direction, lowered]

end Prepared

theorem wp_isFallbackBlocked {parsed : ParsedDecision}
    {post : Except Failure Bool → World → Prop} (start : Steady origin world)
    (raised : ∀ error after, Steady origin after → post (.error error) after)
    (blocked : ∀ after, Steady origin after → post (.ok true) after)
    (passes : ∀ after, Steady origin after →
      FallbackPasses config.settings data parsed origin.book → post (.ok false) after) :
    (isFallbackBlocked config parsed data).wp (sequential faults) post world := by
  unfold isFallbackBlocked
  dsimp only
  split
  case isTrue unguarded =>
    have open_ : fallbackGuarded config.settings data (lower parsed.side) = false := by
      simpa using unguarded
    exact passes _ start ⟨by simp [open_], by simp [open_], by simp [open_]⟩
  split
  case isTrue => exact blocked _ start
  case isFalse allowed =>
  split
  case isTrue => exact blocked _ start
  case isFalse small =>
    rw [Program.bind_eq_bind, Program.wp_bind, PaperBroker.wp_getPosition]
    refine ⟨fun _ => raised _ _ start, ?_⟩
    rw [start.book]
    simp only [Program.andThen_ok, Program.pure_eq_ret, Program.wp_ret]
    cases verdict : fallbackExposureBlocked config.settings (lower parsed.side) parsed.qty
        (signedPositionQty (origin.book.position parsed.symbol)) with
    | true => exact blocked _ start
    | false =>
        exact passes _ start ⟨fun _ => by simpa using allowed, fun _ => by simpa using small,
          fun _ => verdict⟩

theorem wp_parseAndValidate {post : Except Failure (Option ParsedDecision) → World → Prop}
    (start : Steady origin world)
    (raised : ∀ error after, Steady origin after → post (.error error) after)
    (blocked : ∀ after, Steady origin after → post (.ok none) after)
    (passes : ∀ strategyId traceId parsed after, Steady origin after →
      parseDecisionFields strategyId traceId data = .ok parsed →
      FallbackPasses config.settings data parsed origin.book → post (.ok (some parsed)) after) :
    (parseAndValidate config data).wp (sequential faults) post world := by
  rw [parseAndValidate]
  simp only [Program.bind_eq_bind, Program.wp_bind, wp_uuid4, Program.andThen_ok]
  intro strategyId traceId
  split
  case h_1 => exact blocked _ start
  case h_2 parsed accepted =>
    rw [Program.wp_bind]
    apply wp_isFallbackBlocked start
    · exact fun error after steady => raised error after steady
    · exact fun after steady => blocked after steady
    · exact fun after steady unblocked => passes _ _ _ _ steady accepted unblocked

/-- A decision that names no order is stopped by the execution gate. -/
theorem wp_evaluatePreExecutionGates {side symbol : String}
    {signalConfidence reasoningScore absPctMove : ℚ} {atr : Option ℚ}
    {post : Except Failure (Option GateReason) → World → Prop} (start : Steady origin world)
    (raised : ∀ error after, Steady origin after → post (.error error) after)
    (gated : ∀ reason after, Steady origin after → post (.ok (some reason)) after)
    (passes : ∀ after, Steady origin after → isNoOrderAction side = false → post (.ok none) after) :
    (evaluatePreExecutionGates config side symbol signalConfidence reasoningScore atr
      absPctMove).wp (sequential faults) post world := by
  cases tradable : isNoOrderAction side with
  | false =>
      refine wp_of_quiet (mild_evaluatePreExecutionGates _ _ _ _ _ _ _).quiet start ?_
      intro outcome after steady
      cases outcome with
      | error error => exact raised error after steady
      | ok reason =>
          cases reason with
          | some reason => exact gated reason after steady
          | none => exact passes after steady tradable
  | true =>
      apply wp_bind_quiet (mild_isMarketOpen _ _).quiet start raised
      intro marketOpen opened steady
      apply wp_bind_quiet (mild_decisionThreshold _ _ _).quiet steady raised
      intro threshold after steady
      have held : ∀ finalScore,
          checkExecutionGate side finalScore threshold marketOpen = some (.hold side) :=
        fun finalScore => by rw [checkExecutionGate, if_pos tradable]
      simp only [held]
      exact gated _ after steady

theorem wp_applyKellySizing {nominalQty price : ℚ} {post : Except Failure ℚ → World → Prop}
    (start : Steady origin world)
    (raised : ∀ error after, Steady origin after → post (.error error) after)
    (sized : ∀ qty after, Steady origin after →
      ((∃ sizePct, data.sizePct.toFloatOrZero = some sizePct ∧
          qty = sizedQty sizePct origin.book.cash nominalQty price) ∨ faults ∧ qty = nominalQty) →
      post (.ok qty) after) :
    (applyKellySizing data nominalQty price).wp (sequential faults) post world := by
  rw [applyKellySizing]
  cases found : data.sizePct.toFloatOrZero with
  | none => exact raised _ _ start
  | some sizePct =>
      rw [requireFloat]
      simp only [Program.pure_eq_ret, Program.bind_eq_bind, Program.ret_bind]
      split
      case isTrue nominal =>
        exact sized _ _ start (Or.inl ⟨sizePct, found, by rw [sizedQty, if_pos nominal]⟩)
      case isFalse kelly =>
        have cached : Steady origin (world.writeOnce .paperCash defaultPaperCash) :=
          start.trans (steady_writeOnceCash world)
        rw [Program.wp_bind, Program.wp_attempt, PaperBroker.wp_getCash]
        refine ⟨fun faulty => ⟨?_, ?_⟩, ?_⟩
        · exact sized _ _ start (Or.inr ⟨faulty, rfl⟩)
        · exact sized _ _ cached (Or.inr ⟨faulty, rfl⟩)
        · refine sized _ _ cached (Or.inl ⟨sizePct, found, ?_⟩)
          rw [sizedQty, if_neg kelly, start.book]

/-- An order is prepared from its decision and the book, and nothing else moves. -/
theorem wp_prepareOrder {post : Except Failure (Option Order) → World → Prop}
    (start : Steady origin world)
    (raised : ∀ error after, Steady origin after → post (.error error) after)
    (dropped : ∀ after, Steady origin after → post (.ok none) after)
    (prepared : ∀ parsed order after, Steady origin after →
      Prepared faults config data origin.book parsed order → post (.ok (some order)) after) :
    (prepareOrder config data).wp (sequential faults) post world := by
  rw [prepareOrder]
  rw [Program.bind_eq_bind, Program.wp_bind]
  apply wp_parseAndValidate start raised dropped
  intro strategyId traceId parsed validated steady accepted unblocked
  rw [Program.andThen_ok]
  apply wp_bind_quiet (mild_atrRegimeRatio _).quiet steady raised
  intro atr afterAtr steady
  apply wp_bind_quiet (mild_requireFloat _).quiet steady raised
  intro pct afterPct steady
  rw [Program.bind_eq_bind, Program.wp_bind]
  apply wp_evaluatePreExecutionGates steady raised (fun _ => dropped)
  intro afterGates steady tradable
  simp only [Program.andThen_ok]
  rw [Program.bind_eq_bind, Program.wp_bind]
  apply wp_applyKellySizing steady raised
  intro qty sizedAt steady sized
  rw [Program.andThen_ok]
  apply wp_bind_quiet (mild_parseTimestamp _ _).quiet steady raised
  intro minute after steady
  exact prepared parsed _ after steady
    { accepted := ⟨strategyId, traceId, accepted⟩
      unblocked := unblocked
      tradable := tradable
      sized := sized
      symbol := rfl
      side := rfl
      price := rfl
      strategyId := rfl }

/-! ## Effects of one delivery -/

/-- The positions table and the audit log are as they were. -/
structure SameRows (before after : World) : Prop where
  positions : after.db.positions = before.db.positions
  auditLog : after.db.auditLog = before.db.auditLog
  nextId : before.db.nextId ≤ after.db.nextId

/-- Neither book nor rows have changed, and nothing has been submitted. -/
structure Untouched (before after : World) : Prop where
  book : after.book = before.book
  submitted : after.submitted = before.submitted
  rows : SameRows before after

/-- Write of the upsert of a fill, with the id that a new row gets. -/
def upsertWrite (round8 : ℚ → ℚ) (found : Option PositionRow) (id : ℕ)
    (strategyId symbol side : String) (qty fillPrice : ℚ) (avgCost : Option ℚ) : Write :=
  match found with
  | none => .insertPosition (.opened round8 id strategyId symbol side qty fillPrice avgCost)
  | some row => row.updated round8 side qty fillPrice avgCost

structure CommittedRows (config : Config) (order : Order) (qty fillPrice : ℚ)
    (before after : World) : Prop where
  positions : ∃ id avgCost, before.db.nextId ≤ id ∧
    (before.db.findPosition order.strategyId order.symbol = none → id < after.db.nextId) ∧
    after.db.positions =
      (upsertWrite config.round8 (before.db.findPosition order.strategyId order.symbol) id
        order.strategyId order.symbol order.side qty fillPrice avgCost).onPositions
        before.db.positions
  auditLog : ∃ orderId, after.db.auditLog = before.db.auditLog ++ [("order_placed", orderId)]
  nextId : before.db.nextId ≤ after.db.nextId

/-- One admitted order has been placed, undisturbed. -/
structure Filled (faults : Prop) (config : Config) (data : Decision) (order : Order) (qty : ℚ)
    (slippage : Slippage) (before after : World) : Prop where
  prepared : ∃ parsed, Prepared faults config data before.book parsed order
  admitted :
    admission config.settings order.side order.qty (before.book.position order.symbol) = .submit qty
  book : ∃ now, after.book = before.book.fill order.symbol order.side qty
    (slippedPrice config.round8 order.side order.price slippage) now
  submitted : after.submitted = before.submitted ++
    [{ symbol := order.symbol, side := order.side, qty := qty, price := order.price }]

/-- Broker calls of one delivery that Redis may have interrupted: cash is then arbitrary, and each
position has been left alone or written by an order admitted against the book of its time. -/
inductive Churned (faults : Prop) (config : Config) (data : Decision) : Book → Book → Prop
  | settled (book : Book) : Churned faults config data book book
  | cash {before middle after : Book} (churned : Churned faults config data before middle)
      (position : after.position = middle.position) : Churned faults config data before after
  | position {before middle after : Book} {parsed : ParsedDecision} {order : Order}
      {qty fillPrice : ℚ} {now : String} (churned : Churned faults config data before middle)
      (prepared : Prepared faults config data middle parsed order)
      (admitted : admission config.settings order.side order.qty (middle.position order.symbol) =
        .submit qty)
      (position : after.position =
        (middle.fill order.symbol order.side qty fillPrice now).position) :
      Churned faults config data before after

/-- Effect of a delivery that commits no rows. -/
inductive Executed (faults : Prop) (config : Config) (data : Decision) (before after : World) : Prop
  | idle (untouched : Untouched before after)
  | filled {order : Order} {qty : ℚ} {slippage : Slippage}
      (fill : Filled faults config data order qty slippage before after)
      (rows : SameRows before after)
  | torn (faulty : faults) (rows : SameRows before after)
      (churned : Churned faults config data before.book after.book)

/-- Effect of a delivery. -/
inductive Trades (faults : Prop) (config : Config) (data : Decision) (before after : World) : Prop
  | uncommitted (executed : Executed faults config data before after)
  | committed {order : Order} {qty : ℚ} {slippage : Slippage}
      (fill : Filled faults config data order qty slippage before after)
      (rows : CommittedRows config order qty
        (slippedPrice config.round8 order.side order.price slippage) before after)

namespace SameRows

theorem refl (world : World) : SameRows world world := ⟨rfl, rfl, Nat.le_refl _⟩

theorem trans {before middle after : World} (first : SameRows before middle)
    (second : SameRows middle after) : SameRows before after where
  positions := second.positions.trans first.positions
  auditLog := second.auditLog.trans first.auditLog
  nextId := first.nextId.trans second.nextId

theorem of_db {before after : World} (db : after.db = before.db) : SameRows before after := by
  constructor <;> rw [db]

/-- The broker never writes rows. -/
theorem fill (world : World) (order : Submission) (fillPrice : ℚ) (now brokerOrderId : String) :
    SameRows world (world.fill order fillPrice now brokerOrderId) := .of_db rfl

end SameRows

theorem Steady.rows {before after : World} (steady : Steady before after) :
    SameRows before after := ⟨steady.positions, steady.auditLog, steady.nextId⟩

theorem Steady.untouched {before after : World} (steady : Steady before after) :
    Untouched before after := ⟨steady.book, steady.submitted, steady.rows⟩

namespace Untouched

theorem refl (world : World) : Untouched world world := ⟨rfl, rfl, .refl world⟩

theorem trans {before middle after : World} (first : Untouched before middle)
    (second : Untouched middle after) : Untouched before after where
  book := second.book.trans first.book
  submitted := second.submitted.trans first.submitted
  rows := first.rows.trans second.rows

/-- Keys outside the book can be written and deleted. -/
theorem of_redis {before after : World} (db : after.db = before.db)
    (submitted : after.submitted = before.submitted) (book : after.book = before.book) :
    Untouched before after := ⟨book, submitted, .of_db db⟩

theorem erase_orderLock (world : World) (symbol : String) :
    Untouched world (world.erase (.orderLock symbol)) :=
  of_redis rfl rfl (World.book_congr (by simp) (by simp))

theorem writeOnce_orderLock (world : World) (symbol value : String) :
    Untouched world (world.writeOnce (.orderLock symbol) value) :=
  of_redis rfl rfl (World.book_congr (by simp) (by simp))

theorem writeOnce_orderDedup (world : World) (key value : String) :
    Untouched world (world.writeOnce (.orderDedup key) value) :=
  of_redis rfl rfl (World.book_congr (by simp) (by simp))

end Untouched

variable {before middle after : World} {order : Order} {qty : ℚ} {slippage : Slippage}

theorem SameRows.findPosition (same : SameRows before after) (strategyId symbol : String) :
    after.db.findPosition strategyId symbol = before.db.findPosition strategyId symbol := by
  rw [Database.findPosition, Database.findPosition, same.positions]

theorem CommittedRows.congr {fillPrice : ℚ} (start : SameRows before middle)
    (rows : CommittedRows config order qty fillPrice middle after) :
    CommittedRows config order qty fillPrice before after := by
  obtain ⟨⟨id, avgCost, fresh, drawn, positions⟩, ⟨orderId, auditLog⟩, nextId⟩ := rows
  rw [start.findPosition, start.positions] at positions
  rw [start.findPosition] at drawn
  rw [start.auditLog] at auditLog
  exact ⟨⟨id, avgCost, start.nextId.trans fresh, drawn, positions⟩, ⟨orderId, auditLog⟩,
    start.nextId.trans nextId⟩

theorem CommittedRows.append {fillPrice : ℚ}
    (rows : CommittedRows config order qty fillPrice before middle) (finish : SameRows middle after) :
    CommittedRows config order qty fillPrice before after := by
  obtain ⟨⟨id, avgCost, fresh, drawn, positions⟩, ⟨orderId, auditLog⟩, nextId⟩ := rows
  exact ⟨⟨id, avgCost, fresh, fun absent => (drawn absent).trans_le finish.nextId,
    finish.positions.trans positions⟩, ⟨orderId, finish.auditLog.trans auditLog⟩,
    nextId.trans finish.nextId⟩

theorem Filled.congr (start : Untouched before middle)
    (fill : Filled faults config data order qty slippage middle after) :
    Filled faults config data order qty slippage before after := by
  obtain ⟨prepared, admitted, book, submitted⟩ := fill
  rw [start.book] at prepared admitted book
  rw [start.submitted] at submitted
  exact ⟨prepared, admitted, book, submitted⟩

theorem Filled.append (fill : Filled faults config data order qty slippage before middle)
    (book : after.book = middle.book) (submitted : after.submitted = middle.submitted) :
    Filled faults config data order qty slippage before after := by
  obtain ⟨prepared, admitted, ⟨now, filled⟩, placed⟩ := fill
  exact ⟨prepared, admitted, ⟨now, book.trans filled⟩, submitted.trans placed⟩

theorem Executed.congr (start : Untouched before middle)
    (executed : Executed faults config data middle after) :
    Executed faults config data before after := by
  cases executed with
  | idle untouched => exact .idle (start.trans untouched)
  | filled fill rows => exact .filled (fill.congr start) (start.rows.trans rows)
  | torn faulty rows churned =>
      rw [start.book] at churned
      exact .torn faulty (start.rows.trans rows) churned

theorem Executed.append (executed : Executed faults config data before middle)
    (finish : Untouched middle after) : Executed faults config data before after := by
  cases executed with
  | idle untouched => exact .idle (untouched.trans finish)
  | filled fill rows =>
      exact .filled (fill.append finish.book finish.submitted) (rows.trans finish.rows)
  | torn faulty rows churned =>
      rw [← finish.book] at churned
      exact .torn faulty (rows.trans finish.rows) churned

theorem Trades.append (trades : Trades faults config data before middle)
    (finish : Untouched middle after) : Trades faults config data before after := by
  cases trades with
  | uncommitted executed => exact .uncommitted (executed.append finish)
  | committed fill rows =>
      exact .committed (fill.append finish.book finish.submitted) (rows.append finish.rows)

/-! ## In-memory path -/

theorem filled_of_fill (start : Untouched origin world)
    (prepared : ∃ parsed, Prepared faults config data origin.book parsed order)
    (admitted : admission config.settings order.side order.qty
      (origin.book.position order.symbol) = .submit qty)
    (slippage : Slippage) (now brokerOrderId : String) :
    Filled faults config data order qty slippage origin
      (world.fill { symbol := order.symbol, side := order.side, qty := qty, price := order.price }
        (slippedPrice config.round8 order.side order.price slippage) now brokerOrderId) := by
  refine ⟨prepared, admitted, ⟨now, ?_⟩, ?_⟩
  · rw [World.book_fill, start.book]
  · rw [← start.submitted]
    rfl

theorem churned_of_interrupted (start : Untouched origin world)
    (prepared : ∃ parsed, Prepared faults config data origin.book parsed order)
    (admitted : admission config.settings order.side order.qty
      (origin.book.position order.symbol) = .submit qty)
    (interrupted : PaperBroker.Interrupted
      { symbol := order.symbol, side := order.side, qty := qty, price := order.price } world
      after) :
    Churned faults config data origin.book after.book := by
  obtain ⟨parsed, prepared⟩ := prepared
  rcases interrupted.position with same | ⟨fillPrice, now, written⟩
  · exact .cash (.settled _) (by rw [same, start.book])
  · rw [start.book] at written
    exact .position (.settled _) prepared admitted written

theorem wp_executeInMemory {orderId : String} (start : Untouched origin world)
    (prepared : ∃ parsed, Prepared faults config data origin.book parsed order) :
    (executeInMemory config data order orderId).wp (sequential faults)
      (fun _ after => Executed faults config data origin after) world := by
  rw [executeInMemory]
  rw [Program.bind_eq_bind, Program.wp_bind, PaperBroker.wp_getPosition, Program.andThen_ok,
    Program.andThen_error, start.book]
  refine ⟨fun _ => .idle start, ?_⟩
  split
  case h_1 =>
    apply wp_of_quiet (quiet_bind (quiet_runtimeStore _) fun _ => quiet_publish _) (.refl world)
    exact fun _ after steady => .idle (start.trans steady.untouched)
  case h_2 => exact .idle start
  case h_3 qty admitted =>
    apply wp_bind_quiet (quiet_setInFlight _) (.refl world)
    · exact fun _ after steady => .idle (start.trans steady.untouched)
    intro _ flagged steady
    rw [Program.bind_eq_bind, Program.wp_bind]
    have begun := start.trans steady.untouched
    refine PaperBroker.wp_placeOrder config.round8
      { symbol := order.symbol, side := order.side, qty := qty, price := order.price } flagged _
      (fun faulty after interrupted => ?_) fun slippage now brokerOrderId => ?_
    · exact .torn faulty (begun.rows.trans (.of_db interrupted.db))
        (churned_of_interrupted begun prepared admitted interrupted)
    · rw [Program.andThen_ok]
      refine wp_of_quiet (quiet_bind (quiet_recordFill _ _ _ _ _ _ _) fun ctx =>
        quiet_bind (quiet_recordOutcome _) fun _ => quiet_clearInFlight) (.refl _) ?_
      intro _ after steady
      have fill := filled_of_fill begun prepared admitted slippage now brokerOrderId
      exact .filled (fill.append steady.book steady.submitted)
        (begun.rows.trans ((SameRows.fill ..).trans steady.rows))

theorem wp_submitInMemory (start : Untouched origin world)
    (prepared : ∃ parsed, Prepared faults config data origin.book parsed order) :
    (submitInMemory config data order).wp (sequential faults)
      (fun _ after => Executed faults config data origin after) world := by
  rw [submitInMemory]
  rw [Program.bind_eq_bind, Program.wp_bind, wp_redisSetnx, Program.andThen_ok,
    Program.andThen_error]
  refine ⟨fun _ => .idle start, ?_⟩
  have claimed := start.trans (.writeOnce_orderDedup world order.idempotencyKey "1")
  split
  case isFalse => exact .idle claimed
  simp only [Program.bind_eq_bind, Program.wp_bind, wp_uuid4, wp_redisSetnx, Program.andThen_ok,
    Program.andThen_error]
  intro orderId lockValue
  refine ⟨fun _ => .idle claimed, ?_⟩
  have locked := claimed.trans (.writeOnce_orderLock _ order.symbol lockValue)
  split
  case isFalse => exact .idle locked
  rw [Program.wp_tryFinally]
  refine Program.wp_mono sequential_monotone (fun outcome after executed => ?_)
    (wp_executeInMemory locked prepared)
  rw [wp_redisDelete, Program.andThen_ok, Program.andThen_error]
  exact ⟨fun _ => executed, executed.append (.erase_orderLock after order.symbol)⟩

theorem wp_processInMemory (start : Untouched origin world) :
    (processInMemory config data).wp (sequential faults)
      (fun _ after => Executed faults config data origin after) world := by
  rw [processInMemory]
  rw [Program.bind_eq_bind, Program.wp_bind]
  apply wp_prepareOrder (.refl world)
  · exact fun _ after steady => .idle (start.trans steady.untouched)
  · exact fun after steady => .idle (start.trans steady.untouched)
  · intro parsed order after steady prepared
    rw [start.book] at prepared
    exact wp_submitInMemory (start.trans steady.untouched) ⟨parsed, prepared⟩

/-! ## Database path -/

theorem view_positions (db : Database) (session : Session) :
    (db.view session).positions =
      session.foldl (fun rows write => write.onPositions rows) db.positions := by
  induction session generalizing db with
  | nil => rfl
  | cons write session induction => exact induction (write.apply db)

theorem view_auditLog (db : Database) (session : Session) :
    (db.view session).auditLog =
      session.foldl (fun entries write => write.onAuditLog entries) db.auditLog := by
  induction session generalizing db with
  | nil => rfl
  | cons write session induction => exact induction (write.apply db)

theorem view_nextId (db : Database) (session : Session) :
    (db.view session).nextId = db.nextId := by
  induction session generalizing db with
  | nil => rfl
  | cons write session induction => exact induction (write.apply db)

/-- Transactions that write the orders table only. -/
def Session.OrdersOnly (session : Session) : Prop :=
  ∀ write ∈ session, (∀ rows, write.onPositions rows = rows) ∧
    ∀ entries, write.onAuditLog entries = entries

namespace Session.OrdersOnly

theorem nil : OrdersOnly [] := by
  intro write member
  cases member

theorem insertOrder (row : OrderRow) : OrdersOnly [.insertOrder row] := by
  intro write member
  obtain rfl := List.mem_singleton.mp member
  exact ⟨fun _ => rfl, fun _ => rfl⟩

theorem append_updateOrder {session : Session} (only : session.OrdersOnly) (id : ℕ)
    (status brokerOrderId : String) (fillPrice : ℚ) :
    OrdersOnly (session ++ [.updateOrder id status brokerOrderId fillPrice]) := by
  intro write member
  rcases List.mem_append.mp member with earlier | last
  · exact only write earlier
  · obtain rfl := List.mem_singleton.mp last
    exact ⟨fun _ => rfl, fun _ => rfl⟩

theorem positions {session : Session} (only : session.OrdersOnly) (db : Database) :
    (db.view session).positions = db.positions := by
  rw [view_positions]
  generalize db.positions = rows
  induction session generalizing rows with
  | nil => rfl
  | cons write session induction =>
      rw [List.foldl_cons, (only write List.mem_cons_self).1]
      exact induction (fun later member => only later (List.mem_cons_of_mem _ member)) rows

theorem auditLog {session : Session} (only : session.OrdersOnly) (db : Database) :
    (db.view session).auditLog = db.auditLog := by
  rw [view_auditLog]
  generalize db.auditLog = entries
  induction session generalizing entries with
  | nil => rfl
  | cons write session induction =>
      rw [List.foldl_cons, (only write List.mem_cons_self).2]
      exact induction (fun later member => only later (List.mem_cons_of_mem _ member)) entries

/-- Committing order rows touches neither book nor positions. -/
theorem commit {session : Session} (only : session.OrdersOnly) (world : World) :
    Untouched world (world.commit session) where
  book := rfl
  submitted := rfl
  rows := ⟨only.positions world.db, only.auditLog world.db, (view_nextId world.db session).ge⟩

end Session.OrdersOnly

theorem wp_insertRejectedOrderOnce {idempotencyKey strategyId symbol side : String} {price : ℚ}
    {post : Except Failure (ℕ × Bool × Session) → World → Prop} (start : Steady origin world)
    (raised : ∀ error after, Steady origin after → post (.error error) after)
    (answered : ∀ id created session after, Steady origin after → session.OrdersOnly →
      post (.ok (id, created, session)) after) :
    (OrderWriter.insertRejectedOrderOnce [] idempotencyKey strategyId symbol side qty
      price).wp (sequential faults) post world := by
  apply wp_bind_quiet (quiet_database _ (by simp)) start raised
  intro inserted after steady
  cases inserted with
  | some id => exact answered _ _ _ after steady (.insertOrder _)
  | none =>
      apply wp_bind_quiet (quiet_database _ (by simp)) steady raised
      intro found after steady
      cases found with
      | some row => exact answered _ _ _ after steady .nil
      | none => exact raised _ after steady

theorem wp_insertPendingOrder {strategyId symbol side idempotencyKey status : String} {price : ℚ}
    {post : Except Failure (ℕ × Session) → World → Prop} (start : Steady origin world)
    (raised : ∀ error after, Steady origin after → post (.error error) after)
    (answered : ∀ id session after, Steady origin after → session.OrdersOnly →
      post (.ok (id, session)) after) :
    (OrderWriter.insertPendingOrder [] strategyId symbol side qty price idempotencyKey
      status).wp (sequential faults) post world := by
  apply wp_bind_quiet (quiet_database _ (by simp)) start raised
  exact fun id after steady => answered _ _ after steady (.insertOrder _)

theorem wp_placeWithDb {post : Except Failure Placement → World → Prop}
    (start : Untouched origin world)
    (prepared : ∃ parsed, Prepared faults config data origin.book parsed order)
    (raised : ∀ error after, Untouched origin after → post (.error error) after)
    (interrupted : faults → ∀ error after, SameRows origin after →
      Churned faults config data origin.book after.book → post (.error error) after)
    (rejected : ∀ after, Untouched origin after → post (.ok .rejected) after)
    (filled : ∀ orderId qty receipt session (slippage : Slippage) after, session.OrdersOnly →
      receipt.fillPrice = slippedPrice config.round8 order.side order.price slippage →
      Filled faults config data order qty slippage origin after → SameRows origin after →
      post (.ok (.filled orderId qty receipt session)) after) :
    (placeWithDb config order (origin.book.position order.symbol)).wp (sequential faults) post
      world := by
  have steadyRaised : ∀ error after, Steady world after → post (.error error) after :=
    fun error after steady => raised error after (start.trans steady.untouched)
  rw [placeWithDb]
  split
  case h_1 =>
    rw [Program.bind_eq_bind, Program.wp_bind]
    apply wp_insertRejectedOrderOnce (.refl world) steadyRaised
    intro id created session inserted steady only
    have begun := start.trans steady.untouched
    rw [Program.andThen_ok]
    dsimp only
    rw [Program.bind_eq_bind, Program.wp_bind, wp_commit, Program.andThen_error, Program.andThen_ok]
    refine ⟨raised _ _ begun, ?_⟩
    have committed := begun.trans (only.commit inserted)
    split
    case isFalse => exact rejected _ committed
    case isTrue =>
      apply wp_bind_quiet (quiet_publish _) (.refl _)
      · exact fun error after steady => raised error after (committed.trans steady.untouched)
      · exact fun _ after steady => rejected after (committed.trans steady.untouched)
  case h_2 => exact rejected _ start
  case h_3 qty admitted =>
    rw [Program.bind_eq_bind, Program.wp_bind]
    apply wp_insertPendingOrder (.refl world) steadyRaised
    intro orderId session inserted steady only
    rw [Program.andThen_ok]
    apply wp_bind_quiet (quiet_database _ (by simp)) steady steadyRaised
    intro _ flushed steady
    apply wp_bind_quiet (quiet_setInFlight _) steady steadyRaised
    intro _ flagged steady
    have begun := start.trans steady.untouched
    rw [Program.bind_eq_bind, Program.wp_bind]
    refine PaperBroker.wp_placeOrder config.round8
      { symbol := order.symbol, side := order.side, qty := qty, price := order.price } flagged _
      (fun faulty after torn => ?_) fun slippage now brokerOrderId => ?_
    · exact interrupted faulty _ after (begun.rows.trans (.of_db torn.db))
        (churned_of_interrupted begun prepared admitted torn)
    · exact filled orderId qty _ session slippage _ only rfl
        (filled_of_fill begun prepared admitted slippage now brokerOrderId)
        (begun.rows.trans (SameRows.fill ..))

theorem wp_updateOrderFill {session : Session} {orderId : ℕ} {status brokerOrderId : String}
    {fillPrice : ℚ} {post : Except Failure Session → World → Prop} (start : Steady origin world)
    (raised : ∀ error after, Steady origin after → post (.error error) after)
    (answered : ∀ after, Steady origin after →
      post (.ok (session ++ [.updateOrder orderId status brokerOrderId fillPrice])) after) :
    (OrderWriter.updateOrderFill session orderId status brokerOrderId fillPrice).wp
      (sequential faults) post world := by
  apply wp_bind_quiet (quiet_database _ (by simp)) start raised
  exact fun _ after steady => answered after steady

theorem wp_insertAuditLog {session : Session} {eventType : String} {orderId : ℕ}
    {post : Except Failure Session → World → Prop} (start : Steady origin world)
    (raised : ∀ error after, Steady origin after → post (.error error) after)
    (answered : ∀ after, Steady origin after →
      post (.ok (session ++ [.insertAuditLog eventType orderId])) after) :
    (OrderWriter.insertAuditLog session eventType orderId).wp (sequential faults) post world := by
  apply wp_bind_quiet (quiet_database _ (by simp)) start raised
  exact fun _ after steady => answered after steady

/-- The upsert adds one write, made for the row the table holds. -/
theorem wp_upsertPositionDb {session : Session} (only : session.OrdersOnly)
    {round8 : ℚ → ℚ} {strategyId symbol side : String} {fillPrice : ℚ} {avgCost : Option ℚ}
    {post : Except Failure Session → World → Prop} (start : Steady origin world)
    (raised : ∀ error after, Steady origin after → post (.error error) after)
    (answered : ∀ id after, Steady origin after → origin.db.nextId ≤ id →
      (origin.db.findPosition strategyId symbol = none → id < after.db.nextId) →
      post (.ok (session ++ [upsertWrite round8 (origin.db.findPosition strategyId symbol) id
        strategyId symbol side qty fillPrice avgCost])) after) :
    (OrderWriter.upsertPositionDb round8 session strategyId symbol side qty fillPrice avgCost).wp
      (sequential faults) post world := by
  have lookup : (world.db.view session).findPosition strategyId symbol =
      origin.db.findPosition strategyId symbol := by
    rw [Database.findPosition, Database.findPosition, only.positions, start.positions]
  rw [OrderWriter.upsertPositionDb]
  rw [Program.bind_eq_bind, Program.wp_bind, wp_database]
  refine ⟨raised _ _ start, ?_⟩
  simp only [Statement.run, Program.andThen_ok, lookup]
  cases found : origin.db.findPosition strategyId symbol with
  | none =>
      rw [found] at answered
      simp only [Program.bind_eq_bind, Program.wp_bind, wp_database]
      refine ⟨raised _ _ start, ?_⟩
      have drawn : Steady origin
          { world with db := { world.db with nextId := world.db.nextId + 1 } } :=
        { start with nextId := start.nextId.trans (Nat.le_succ _) }
      exact answered world.db.nextId _ drawn start.nextId fun _ => Nat.lt_succ_self _
  | some row =>
      rw [found] at answered
      apply wp_bind_quiet (quiet_database _ (by simp)) start raised
      intro _ after steady
      exact answered origin.db.nextId after steady (Nat.le_refl _) (by simp)

theorem committedRows_commit {session : Session} (only : session.OrdersOnly) {id orderId : ℕ}
    {fillPrice : ℚ} {avgCost : Option ℚ} (steady : Steady before middle)
    (fresh : before.db.nextId ≤ id)
    (drawn : before.db.findPosition order.strategyId order.symbol = none → id < middle.db.nextId) :
    CommittedRows config order qty fillPrice before
      (middle.commit (session ++ [upsertWrite config.round8
        (before.db.findPosition order.strategyId order.symbol) id order.strategyId order.symbol
        order.side qty fillPrice avgCost] ++ [.insertAuditLog "order_placed" orderId])) := by
  have sequence : (middle.commit (session ++ [upsertWrite config.round8
        (before.db.findPosition order.strategyId order.symbol) id order.strategyId order.symbol
        order.side qty fillPrice avgCost] ++ [.insertAuditLog "order_placed" orderId])).db.nextId =
      middle.db.nextId := view_nextId middle.db _
  have positions := only.positions middle.db
  have auditLog := only.auditLog middle.db
  rw [view_positions] at positions
  rw [view_auditLog] at auditLog
  refine ⟨⟨id, avgCost, fresh, ?_, ?_⟩, ⟨orderId, ?_⟩, ?_⟩
  · rw [sequence]
    exact drawn
  · rw [World.commit_db, view_positions, List.foldl_append, List.foldl_append, positions,
      steady.positions]
    rfl
  · rw [World.commit_db, view_auditLog, List.foldl_append, List.foldl_append, auditLog,
      steady.auditLog]
    cases before.db.findPosition order.strategyId order.symbol with
    | none => rfl
    | some row => rfl
  · rw [sequence]
    exact steady.nextId

theorem wp_commitFill {post : Except Failure Unit → World → Prop} {session : Session}
    {prior : Position} {orderId : ℕ} {receipt : BrokerOrder} (only : session.OrdersOnly)
    (price : receipt.fillPrice = slippedPrice config.round8 order.side order.price slippage)
    (fill : Filled faults config data order qty slippage origin world)
    (rows : SameRows origin world)
    (raised : ∀ error after, Trades faults config data origin after → post (.error error) after)
    (committed : ∀ after, Trades faults config data origin after → post (.ok ()) after) :
    (commitFill config order prior orderId qty receipt session).wp (sequential faults) post
      world := by
  have uncommitted : ∀ error after, Steady world after → post (.error error) after := by
    intro error after steady
    exact raised error after (.uncommitted
      (.filled (fill.append steady.book steady.submitted) (rows.trans steady.rows)))
  rw [commitFill]
  -- only the cooling-off record reads the PnL
  generalize computeRealizedPnl config.round8 prior order.side qty receipt.fillPrice = realizedPnl
  rw [Program.bind_eq_bind, Program.wp_bind]
  apply wp_updateOrderFill (.refl world) uncommitted
  intro updated steady
  rw [Program.andThen_ok]
  apply wp_bind_quiet (quiet_getPosition _) steady uncommitted
  intro position read steady
  rw [Program.bind_eq_bind, Program.wp_bind]
  apply wp_upsertPositionDb (only.append_updateOrder _ _ _ _) steady uncommitted
  intro id upserted steady fresh drawn
  rw [Program.andThen_ok, Program.bind_eq_bind, Program.wp_bind]
  apply wp_insertAuditLog (.refl upserted)
  · exact fun error after steadyAfter => uncommitted error after (steady.trans steadyAfter)
  intro audited steadyAudited
  have sequence := steadyAudited.nextId
  replace steadyAudited := steady.trans steadyAudited
  rw [Program.andThen_ok, Program.bind_eq_bind, Program.wp_bind, wp_commit, Program.andThen_error,
    Program.andThen_ok]
  refine ⟨uncommitted _ _ steadyAudited, ?_⟩
  refine wp_of_quiet (quiet_bind (quiet_recordOutcome _) fun _ => quiet_clearInFlight) (.refl _) ?_
  intro outcome after steadyAfter
  have traded : Trades faults config data origin after := by
    refine .committed ((fill.append steadyAudited.book steadyAudited.submitted).append
      steadyAfter.book steadyAfter.submitted) ?_
    rw [← price]
    refine CommittedRows.append (CommittedRows.congr rows ?_) steadyAfter.rows
    exact committedRows_commit (only.append_updateOrder _ _ _ _) steadyAudited fresh
      fun absent => (drawn absent).trans_le sequence
  cases outcome with
  | ok _ => exact committed after traded
  | error error => exact raised error after traded

/-- The broker has not answered: nothing has happened, or Redis has interrupted the call. -/
inductive Unplaced (faults : Prop) (config : Config) (data : Decision) (before after : World) : Prop
  | untouched (untouched : Untouched before after)
  | torn (faulty : faults) (rows : SameRows before after)
      (churned : Churned faults config data before.book after.book)

theorem Unplaced.executed (unplaced : Unplaced faults config data before after) :
    Executed faults config data before after := by
  cases unplaced with
  | untouched untouched => exact .idle untouched
  | torn faulty rows churned => exact .torn faulty rows churned

theorem Unplaced.append (unplaced : Unplaced faults config data before middle)
    (finish : Untouched middle after) : Unplaced faults config data before after := by
  cases unplaced with
  | untouched untouched => exact .untouched (untouched.trans finish)
  | torn faulty rows churned =>
      rw [← finish.book] at churned
      exact .torn faulty (rows.trans finish.rows) churned

theorem Executed.rows (executed : Executed faults config data before after) :
    SameRows before after := by
  cases executed with
  | idle untouched => exact untouched.rows
  | filled fill rows => exact rows
  | torn faulty rows churned => exact rows

theorem Churned.trans {before middle after : Book}
    (first : Churned faults config data before middle)
    (second : Churned faults config data middle after) :
    Churned faults config data before after := by
  induction second with
  | settled => exact first
  | cash _ position churned => exact .cash churned position
  | position _ prepared admitted position churned =>
      exact .position churned prepared admitted position

theorem Executed.churned (executed : Executed faults config data before after) :
    Churned faults config data before.book after.book := by
  cases executed with
  | idle untouched =>
      rw [untouched.book]
      exact .settled _
  | filled fill rows =>
      obtain ⟨⟨parsed, prepared⟩, admitted, ⟨now, book⟩, -⟩ := fill
      exact .position (.settled _) prepared admitted (by rw [book])
  | torn faulty rows churned => exact churned

/-- The in-memory path taken after the database path gave up. -/
theorem Unplaced.andThen (unplaced : Unplaced faults config data before middle)
    (executed : Executed faults config data middle after) :
    Executed faults config data before after := by
  cases unplaced with
  | untouched untouched => exact executed.congr untouched
  | torn faulty rows churned =>
      exact .torn faulty (rows.trans executed.rows) (churned.trans executed.churned)

theorem wp_executeWithDb {post : Except Failure DbOutcome → World → Prop}
    (start : Untouched origin world)
    (prepared : ∃ parsed, Prepared faults config data origin.book parsed order)
    (raised : ∀ error after, Trades faults config data origin after → post (.error error) after)
    (unplaced : ∀ after, Unplaced faults config data origin after →
      post (.ok (.failed none)) after)
    (done : ∀ outcome after, outcome ≠ .failed none → Trades faults config data origin after →
      post (.ok outcome) after) :
    (executeWithDb config order (origin.book.position order.symbol)).wp (sequential faults) post
      world := by
  -- rolling back is quiet
  have rollback : ∀ (result : DbOutcome) begun,
      (∀ error after, Untouched begun after → post (.error error) after) →
      (∀ after, Untouched begun after → post (.ok result) after) →
      (database [] .rollback >>= fun _ => pure result).wp (sequential faults) post begun := by
    intro result begun failed finished
    apply wp_bind_quiet (quiet_database _ (by simp)) (.refl begun)
    · exact fun error after steady => failed error after steady.untouched
    · exact fun _ after steady => finished after steady.untouched
  have notPlaced : ∀ begun, Unplaced faults config data origin begun →
      (database [] .rollback >>= fun _ => pure (.failed none)).wp (sequential faults) post
        begun := by
    intro begun unplacedSoFar
    apply rollback
    · exact fun error after finish =>
        raised error after (.uncommitted (unplacedSoFar.append finish).executed)
    · exact fun after finish => unplaced after (unplacedSoFar.append finish)
  rw [executeWithDb]
  rw [Program.bind_eq_bind, Program.wp_bind, Program.wp_attempt]
  apply wp_placeWithDb start prepared
  · exact fun error begun untouched => notPlaced begun (.untouched untouched)
  · exact fun faulty error begun rows churned => notPlaced begun (.torn faulty rows churned)
  · exact fun after untouched => done _ after (by simp) (.uncommitted (.idle untouched))
  · intro orderId qty receipt session slippage placed only price fill rows
    rw [Program.andThen_ok]
    dsimp only
    rw [Program.bind_eq_bind, Program.wp_bind, Program.wp_attempt]
    apply wp_commitFill only price fill rows
    · intro error begun trades
      apply rollback
      · exact fun error after finish => raised error after (trades.append finish)
      · exact fun after finish => done _ after (by simp) (trades.append finish)
    · exact fun after trades => done _ after (by simp) trades

theorem wp_submitWithDb (start : Untouched origin world)
    (prepared : ∃ parsed, Prepared faults config data origin.book parsed order) :
    (submitWithDb config data order).wp (sequential faults)
      (fun _ after => Trades faults config data origin after) world := by
  rw [submitWithDb]
  apply wp_bind_quiet quiet_uuid4 (.refl world)
  · exact fun error after steady => .uncommitted (.idle (start.trans steady.untouched))
  intro lockValue drawn steady
  apply wp_bind_quiet (quiet_database _ (by simp)) steady
  · exact fun error after steady => .uncommitted (.idle (start.trans steady.untouched))
  intro existing selected steady
  have begun := start.trans steady.untouched
  cases existing with
  | some row => exact .uncommitted (.idle begun)
  | none =>
      dsimp only
      rw [Program.bind_eq_bind, Program.wp_bind, wp_redisSetnx, Program.andThen_error,
        Program.andThen_ok]
      refine ⟨fun _ => .uncommitted (.idle begun), ?_⟩
      have locked := begun.trans (.writeOnce_orderLock selected order.symbol lockValue)
      split
      case isFalse => exact .uncommitted (.idle locked)
      rw [Program.bind_eq_bind, Program.wp_bind, PaperBroker.wp_getPosition, Program.andThen_ok,
        Program.andThen_error, locked.book]
      refine ⟨fun _ => .uncommitted (.idle locked), ?_⟩
      rw [Program.bind_eq_bind, Program.wp_bind, Program.wp_tryFinally]
      apply wp_executeWithDb locked prepared
      · intro error after trades
        rw [wp_redisDelete, Program.andThen_ok, Program.andThen_error]
        exact ⟨fun _ => trades, trades.append (.erase_orderLock after order.symbol)⟩
      · intro after unplaced
        rw [wp_redisDelete, Program.andThen_ok, Program.andThen_error]
        refine ⟨fun _ => .uncommitted unplaced.executed, ?_⟩
        rw [Program.andThen_ok]
        refine Program.wp_mono sequential_monotone (fun _ finished executed => ?_)
          (wp_processInMemory (.refl _))
        exact .uncommitted ((unplaced.append (.erase_orderLock after order.symbol)).andThen
          executed)
      · intro outcome after placed trades
        rw [wp_redisDelete, Program.andThen_ok, Program.andThen_error]
        refine ⟨fun _ => trades, ?_⟩
        have released := trades.append (.erase_orderLock after order.symbol)
        cases outcome with
        | rejected => exact released
        | committed orderId qty receipt =>
            apply wp_of_quiet (quiet_publishCommitted _ _ _ _ _ _ _) (.refl _)
            exact fun _ finished steady => released.append steady.untouched
        | failed filled =>
            cases filled with
            | none => exact absurd rfl placed
            | some answer =>
                refine wp_of_quiet (quiet_bind quiet_uuid4 fun _ =>
                  quiet_bind (quiet_recordFill _ _ _ _ _ _ _) fun _ => quiet_ret _) (.refl _) ?_
                exact fun _ finished steady => released.append steady.untouched

theorem wp_processWithDb (start : Untouched origin world) :
    (processWithDb config data).wp (sequential faults)
      (fun _ after => Trades faults config data origin after) world := by
  rw [processWithDb]
  rw [Program.bind_eq_bind, Program.wp_bind]
  apply wp_prepareOrder (.refl world)
  · exact fun _ after steady => .uncommitted (.idle (start.trans steady.untouched))
  · exact fun after steady => .uncommitted (.idle (start.trans steady.untouched))
  · intro parsed order after steady prepared
    rw [start.book] at prepared
    exact wp_submitWithDb (start.trans steady.untouched) ⟨parsed, prepared⟩

/-! ## Whole deliveries -/

/-- A delivery is over before it has touched anything, or it is what its path makes of it. -/
theorem wp_process_of_paths (world : World) {post : World → Prop}
    (idle : ∀ after, Steady world after → post after)
    (database : ∀ checked, Steady world checked →
      (processWithDb config data).wp (sequential faults) (fun _ after => post after) checked)
    (memory : ∀ checked, Steady world checked →
      (processInMemory config data).wp (sequential faults) (fun _ after => post after) checked) :
    (process config data).wp (sequential faults) (fun _ after => post after) world := by
  rw [process]
  apply wp_bind_quiet (quiet_redisGet _) (.refl world) fun _ => idle
  intro killSwitch checked steady
  split
  case isTrue => exact idle _ steady
  apply wp_bind_quiet (quiet_redisGet _) steady fun _ => idle
  intro paused checked steady
  split
  case isTrue =>
    apply wp_bind_quiet (quiet_redisGet _) steady fun _ => idle
    exact fun _ => idle
  apply wp_bind_quiet mild_isDbAvailable.quiet steady fun _ => idle
  intro available checked steady
  split
  case isTrue => exact database _ steady
  case isFalse => exact memory _ steady

theorem wp_process (world : World) :
    (process config data).wp (sequential faults)
      (fun _ after => Trades faults config data world after) world := by
  refine wp_process_of_paths world (fun after steady => .uncommitted (.idle steady.untouched))
    (fun checked steady => wp_processWithDb steady.untouched) fun checked steady => ?_
  refine Program.wp_mono sequential_monotone (fun _ after executed => ?_)
    (wp_processInMemory steady.untouched)
  exact .uncommitted executed

theorem trades_of_process (config : Config) (delivery : Delivery) (world : World)
    (redis : ∀ n, (delivery.choices n).redisFails = true → faults) :
    Trades faults config delivery.data world (deliver config world delivery) :=
  Handler.exec_of_wp (wp_process world) delivery.choices redis

/-- With a healthy Redis a delivery does nothing or places one undisturbed order. -/
theorem untouched_or_filled (config : Config) (delivery : Delivery) (world : World)
    (redis : ∀ n, (delivery.choices n).redisFails = false) :
    Untouched world (deliver config world delivery) ∨ ∃ order qty slippage,
      Filled False config delivery.data order qty slippage world (deliver config world delivery) := by
  have trades : Trades False config delivery.data world (deliver config world delivery) :=
    trades_of_process config delivery world fun n fails => by simp [redis n] at fails
  cases trades with
  | uncommitted executed =>
      cases executed with
      | idle untouched => exact Or.inl untouched
      | filled fill rows => exact Or.inr ⟨_, _, _, fill⟩
      | torn impossible _ _ => exact impossible.elim
  | committed fill rows => exact Or.inr ⟨_, _, _, fill⟩

theorem filled_of_submitted (config : Config) (delivery : Delivery) (world : World)
    (redis : ∀ n, (delivery.choices n).redisFails = false)
    (submitted : (deliver config world delivery).submitted ≠ world.submitted) :
    ∃ order qty slippage,
      Filled False config delivery.data order qty slippage world (deliver config world delivery) := by
  rcases untouched_or_filled config delivery world redis with untouched | filled
  · exact absurd untouched.submitted submitted
  · exact filled

end TradingControl
