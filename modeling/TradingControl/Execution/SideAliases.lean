import TradingControl.Execution.LongOnly
import TradingControl.Execution.SeenDelivery

/-!
# Aliases of the sides

A decision may spell its side `buy` or `long`, `sell` or `short`.  The guard on fallback decisions
knows the first of each pair only, and so do the risk-off threshold and the no-trade window for
buys.  The idempotency key contains the spelling.  Everything else is the same for both.
-/

namespace TradingControl

open Effects Python Engine

/-! ## Respelled decisions -/

/-- The decision with its side spelled another way. -/
def Decision.respelled (data : Decision) (action side : Option String) : Decision :=
  { data with action := action, side := side }

/-- The respelled decision says `long` for `buy` or `short` for `sell`, in any letter case. -/
def Decision.Aliases (data : Decision) (action side : Option String) : Prop :=
  data.sideOrAction = "buy" ∧ (data.respelled action side).sideOrAction = "long" ∨
    data.sideOrAction = "sell" ∧ (data.respelled action side).sideOrAction = "short"

instance (data : Decision) (action side : Option String) : Decidable (data.Aliases action side) :=
  inferInstanceAs (Decidable (_ ∨ _))

/-- Both spellings name the same side. -/
structure SameSide (side other : String) : Prop where
  buy : isBuy other = isBuy side
  sell : isSell other = isSell side
  direction : direction other = direction side
  order : isNoOrderAction other = isNoOrderAction side

theorem sameSide_long : SameSide "buy" "long" :=
  ⟨by decide, by decide, by decide +kernel, by decide⟩

theorem sameSide_short : SameSide "sell" "short" :=
  ⟨by decide, by decide, by decide +kernel, by decide⟩

section

variable {data : Decision} {action side : Option String}

theorem Decision.Aliases.sameSide (aliases : data.Aliases action side) :
    SameSide data.sideOrAction (data.respelled action side).sideOrAction := by
  rcases aliases with ⟨plain, other⟩ | ⟨plain, other⟩
  · rw [plain, other]
    exact sameSide_long
  · rw [plain, other]
    exact sameSide_short

theorem Decision.Aliases.missing (aliases : data.Aliases action side) :
    (data.respelled action side).missing = data.missing := by
  have nonempty : data.sideOrAction ≠ "" ∧ (data.respelled action side).sideOrAction ≠ "" := by
    rcases aliases with ⟨plain, other⟩ | ⟨plain, other⟩
    · rw [plain, other]
      decide
    · rw [plain, other]
      decide
  rw [Decision.missing, Decision.missing, if_neg nonempty.1, if_neg nonempty.2]
  rfl

/-- Respelling changes the side of the validated decision and nothing else. -/
theorem parseDecisionFields_respelled (aliases : data.Aliases action side)
    (strategyId traceId : String) :
    parseDecisionFields strategyId traceId (data.respelled action side) =
      (parseDecisionFields strategyId traceId data).map fun parsed =>
        { parsed with side := (data.respelled action side).sideOrAction } := by
  have qty : (data.respelled action side).qty = data.qty := rfl
  have price : (data.respelled action side).price = data.price := rfl
  rw [parseDecisionFields, parseDecisionFields, aliases.missing, qty, price]
  split_ifs with missing
  · rfl
  · split
    · split
      · rfl
      · rfl
    · rfl

end

/-! ## Orders on both spellings -/

section

variable {side other : String} (same : SameSide side other)

include same

theorem SameSide.admission (settings : Settings) (qty : ℚ) (prior : Position) :
    admission settings other qty prior = admission settings side qty prior := by
  have rejects : rejectUnmatchedSell other prior = rejectUnmatchedSell side prior := by
    rw [rejectUnmatchedSell, rejectUnmatchedSell, same.sell]
  have clamped : clampSellToHolding other qty prior = clampSellToHolding side qty prior := by
    rw [clampSellToHolding, clampSellToHolding, same.sell]
  rw [TradingControl.admission, TradingControl.admission, rejects, clamped, same.buy]

theorem SameSide.computeRealizedPnl (round8 : ℚ → ℚ) (prior : Position) (qty fillPrice : ℚ) :
    computeRealizedPnl round8 prior other qty fillPrice =
      computeRealizedPnl round8 prior side qty fillPrice := by
  rw [TradingControl.computeRealizedPnl, TradingControl.computeRealizedPnl, same.buy, same.sell]

theorem SameSide.slippedPrice (round8 : ℚ → ℚ) (price slippage : ℚ) :
    slippedPrice round8 other price slippage = slippedPrice round8 side price slippage := by
  rw [TradingControl.slippedPrice, TradingControl.slippedPrice, same.direction]

theorem SameSide.bookFill (book : Book) (symbol : String) (qty fillPrice : ℚ) (now : String) :
    book.fill symbol other qty fillPrice now = book.fill symbol side qty fillPrice now := by
  have settled : settle book.cash other qty fillPrice = settle book.cash side qty fillPrice := by
    rw [settle, settle, same.direction]
  have filled : (book.position symbol).fill other qty fillPrice now =
      (book.position symbol).fill side qty fillPrice now := by
    unfold Position.fill
    rw [same.direction]
  rw [Book.fill, Book.fill, settled, filled]

end

/-- Two orders for the same trade. -/
structure SameTrade (order other : Order) : Prop where
  symbol : other.symbol = order.symbol
  side : SameSide order.side other.side
  qty : other.qty = order.qty
  price : other.price = order.price

namespace Moment

variable {moment : Moment} {config : Config} {world : World} {data : Decision}
  {order other : Order} {action side : Option String}

/-- The same trade leaves the same behind. -/
theorem seenAdmitted_of_sameTrade (trade : SameTrade order other) (seen : Seen) :
    moment.seenAdmitted config (data.respelled action side) other seen =
      moment.seenAdmitted config data order seen := by
  have fillPrice : moment.fillPrice config other = moment.fillPrice config order := by
    rw [fillPrice, trade.side.slippedPrice, trade.price, ← fillPrice]
  have realizedPnl : ∀ qty, moment.realizedPnl config other qty seen =
      moment.realizedPnl config order qty seen := by
    intro qty
    rw [realizedPnl, fillPrice, trade.side.computeRealizedPnl, trade.symbol, ← realizedPnl]
  have seenPlaced : ∀ qty, moment.seenPlaced config other qty seen =
      moment.seenPlaced config order qty seen := by
    intro qty
    rw [seenPlaced, seenPlaced, fillPrice, Seen.place, Seen.place]
    simp only [Order.submission, trade.side.bookFill, trade.symbol, trade.price]
  have cost : (data.respelled action side).decisionCostUsd = data.decisionCostUsd := rfl
  rw [seenAdmitted, seenAdmitted, trade.symbol, trade.qty, trade.side.admission]
  cases admission config.settings order.side order.qty (seen.book.position order.symbol) with
  | rejectSell => rfl
  | rejectBuy => rfl
  | submit qty =>
      dsimp only
      rw [seenFilled, seenFilled, realizedPnl, seenPlaced, cost]

end Moment

/-! ## The gates on both spellings -/

namespace Moment

variable (moment : Moment) (config : Config) (world : World) (data : Decision)
  (parsed : ParsedDecision)

/-- The gates that do not depend on the spelling let a validated decision through. -/
def commonGates : Bool :=
  match data.ratio, data.pct.toFloatOrZero with
  | some ratio, some pct =>
      moment.baseThreshold config ≤
          computeExecutionScore (extractDecisionScores data).1 (extractDecisionScores data).2 &&
        moment.marketOpen config && !world.inFlight &&
        config.constants .signalConfidenceMinGate ≤ (extractDecisionScores data).1 &&
        (choppyRegimeGate ratio).isNone &&
        (checkNetEvGate (extractDecisionScores data).1 |pct| slippagePctPerSide).isNone &&
        (isSell parsed.side || !world.coolingOff)
  | _, _ => false

/-- The checks that only `buy` meets: the risk-off threshold and the no-trade window. -/
def buyChecks : Bool :=
  parsed.side ≠ "buy" ||
    (!RegimeRisk.isRiskOff (RegimeRisk.regimeOf (world.macroPayload parsed.symbol)) ||
        riskOffExecutionDecisionThreshold ≤
          computeExecutionScore (extractDecisionScores data).1 (extractDecisionScores data).2) &&
      !(config.settings.noTradeWindowEnabled && moment.noTradeWindow)

/-- The checks that only `buy` and `sell` meet let it through. -/
def plainChecks : Bool :=
  !fallbackBlocks config world parsed data && moment.buyChecks config world data parsed

variable {moment config world data parsed} {action side : Option String}

theorem checkConfidenceGate_isNone {side : String} (order : isNoOrderAction side = false)
    (signalConfidence threshold : ℚ) :
    (checkConfidenceGate signalConfidence side threshold).isNone =
      decide (threshold ≤ signalConfidence) := by
  rw [checkConfidenceGate, order, if_neg Bool.false_ne_true]
  split_ifs with low
  · simp [low]
  · simp [not_lt.mp low]

theorem threshold_le (side symbol : String) (score : ℚ) :
    decide (moment.threshold config world side symbol ≤ score) =
      (decide (moment.baseThreshold config ≤ score) &&
        (side ≠ "buy" || (!RegimeRisk.isRiskOff (RegimeRisk.regimeOf (world.macroPayload symbol)) ||
          riskOffExecutionDecisionThreshold ≤ score))) := by
  rw [threshold]
  split
  · rename_i buy
    rw [RegimeRisk.executionThreshold, Bool.true_and]
    cases RegimeRisk.isRiskOff (RegimeRisk.regimeOf (world.macroPayload symbol)) with
    | false => simp
    | true => simp [buy]
  · rename_i other
    simp [other]

/-- The gates are the common ones and those for buys. -/
theorem passes_eq (order : isNoOrderAction parsed.side = false) :
    moment.passes config world data parsed =
      (moment.commonGates config world data parsed &&
        moment.buyChecks config world data parsed) := by
  rw [passes, commonGates, buyChecks]
  cases data.ratio with
  | none => rfl
  | some ratio =>
    cases data.pct.toFloatOrZero with
    | none => rfl
    | some pct =>
      simp only [gatesAdmit, order, threshold_le, windowBlocks, checkConfidenceGate_isNone order]
      by_cases buy : parsed.side = "buy"
      · -- the same checks in another order
        simp only [buy, Bool.not_false, Bool.true_and, decide_true, decide_false, Bool.and_true,
          Bool.false_or, ne_eq, not_true_eq_false]
        ac_rfl
      · simp [buy]

/-- The plain spelling meets the common gates and its own checks. -/
theorem admits_plain (aliases : data.Aliases action side)
    (accepted : parseDecisionFields "" "" data = .ok parsed) :
    moment.admits config world data =
      (moment.commonGates config world data parsed &&
        moment.plainChecks config world data parsed) := by
  have order : isNoOrderAction parsed.side = false := by
    rw [(parseDecisionFields_fields accepted).2.1]
    rcases aliases with ⟨plain, -⟩ | ⟨plain, -⟩
    · rw [plain]
      rfl
    · rw [plain]
      rfl
  rw [admits_of_parsed accepted, passes_eq order, plainChecks]
  exact Bool.and_left_comm ..

theorem admits_respelled (aliases : data.Aliases action side)
    (accepted : parseDecisionFields "" "" data = .ok parsed) :
    moment.admits config world (data.respelled action side) =
      moment.commonGates config world data parsed := by
  have same := aliases.sameSide
  have spelled : parsed.side = data.sideOrAction := (parseDecisionFields_fields accepted).2.1
  have other : parseDecisionFields "" "" (data.respelled action side) =
      .ok { parsed with side := (data.respelled action side).sideOrAction } := by
    rw [parseDecisionFields_respelled aliases, accepted]
    rfl
  have unknown : (data.respelled action side).sideOrAction ≠ "buy" ∧
      fallbackGuarded config.settings (data.respelled action side)
        (lower (data.respelled action side).sideOrAction) = false ∧
      isNoOrderAction (data.respelled action side).sideOrAction = false := by
    rcases aliases with ⟨-, spelling⟩ | ⟨-, spelling⟩
    · have long : lower "long" = "long" := by decide +kernel
      rw [spelling, long]
      exact ⟨by decide, rfl, rfl⟩
    · have short : lower "short" = "short" := by decide +kernel
      rw [spelling, short]
      exact ⟨by decide, rfl, rfl⟩
  have cleared : fallbackBlocks config world
      { parsed with side := (data.respelled action side).sideOrAction }
      (data.respelled action side) = false := by
    rw [fallbackBlocks, unknown.2.1, Bool.false_and]
  have unchecked : moment.buyChecks config world (data.respelled action side)
      { parsed with side := (data.respelled action side).sideOrAction } = true := by
    rw [buyChecks, decide_eq_true unknown.1, Bool.true_or]
  have common : moment.commonGates config world (data.respelled action side)
      { parsed with side := (data.respelled action side).sideOrAction } =
        moment.commonGates config world data parsed := by
    unfold commonGates
    rw [spelled]
    dsimp only
    rw [same.sell]
    rfl
  have gates := @passes_eq moment config world (data.respelled action side)
    { parsed with side := (data.respelled action side).sideOrAction } unknown.2.2
  rw [admits_of_parsed other, cleared, gates, unchecked, common, Bool.not_false, Bool.true_and,
    Bool.and_true]

end Moment

/-! ## One delivery of each spelling -/

/-- Nothing stands in the way of an order under the lock. -/
def World.Submits (config : Config) (world : World) (order : Order) : Prop :=
  world.redis (.orderLock order.symbol) = none ∧ ∃ qty, admission config.settings order.side
    order.qty (world.book.position order.symbol) = .submit qty

namespace Moment

variable (moment : Moment) (config : Config) (world : World) (data : Decision)

/-- Order of a decision, with the strategy id drawn for it. -/
def orderFor (strategyId : String) : Option Order :=
  match parseDecisionFields strategyId "" data with
  | .ok parsed => moment.orderOf config world data parsed
  | .error _ => none

variable {moment config world data} {action side : Option String}

/-- An order that gets through leaves an order more at the broker. -/
theorem seenAdmitted_ne {order : Order} (submits : world.Submits config order) :
    moment.seenAdmitted config data order world.seen ≠ world.seen := by
  obtain ⟨-, qty, admitted⟩ := submits
  have prior : world.book.position order.symbol = world.seen.book.position order.symbol := rfl
  have pushed : ∀ (seen : Seen) pnl, (seen.push pnl).orders = seen.orders := by
    intro seen pnl
    rw [Seen.push]
    split
    · rfl
    · rfl
  intro same
  have counted : (moment.seenAdmitted config data order world.seen).orders.length =
      world.seen.orders.length + 1 := by
    rw [seenAdmitted, ← prior, admitted]
    dsimp only
    rw [seenFilled]
    split
    · simp [Seen.perform, pushed, seenPlaced, Seen.place]
    · split
      · simp [pushed, seenPlaced, Seen.place]
      · simp [seenPlaced, Seen.place]
  rw [same] at counted
  exact absurd counted (Nat.succ_ne_self _).symm

/-- An order that does not get through leaves nothing. -/
theorem seenSubmitted_of_not_submits {order : Order} (stopped : ¬world.Submits config order) :
    moment.seenSubmitted config data order world = world.seen := by
  rw [seenSubmitted]
  split
  · rfl
  · rename_i free
    rw [not_or, Option.not_isSome_iff_eq_none] at free
    have refused : ∀ qty, admission config.settings order.side order.qty
        (world.seen.book.position order.symbol) ≠ .submit qty :=
      fun qty admitted => stopped ⟨free.2, qty, admitted⟩
    rw [seenAdmitted]
    split
    · rename_i qty admitted
      exact absurd admitted (refused qty)
    · rfl
    · rfl

/-- Both spellings make the same trade of a decision. -/
theorem orderFor_respelled (aliases : data.Aliases action side) (strategyId other : String) :
    Option.Rel SameTrade (moment.orderFor config world data strategyId)
      (moment.orderFor config world (data.respelled action side) other) := by
  rw [orderFor, orderFor, parseDecisionFields_respelled aliases,
    parseDecisionFields_drawn strategyId, parseDecisionFields_drawn other]
  cases accepted : parseDecisionFields "" "" data with
  | error reason => exact .none
  | ok parsed =>
      have same := aliases.sameSide
      rw [← (parseDecisionFields_fields accepted).2.1] at same
      have size : ∀ strategyId traceId spelling,
          sized world (data.respelled action side)
            { parsed with strategyId := strategyId, traceId := traceId, side := spelling } =
          sized world data parsed := fun _ _ _ => rfl
      have plain : ∀ strategyId traceId,
          sized world data { parsed with strategyId := strategyId, traceId := traceId } =
          sized world data parsed := fun _ _ => rfl
      have time : moment.minute config (data.respelled action side) = moment.minute config data :=
        rfl
      simp only [Except.map, orderOf, size, plain, time]
      cases sized world data parsed with
      | none => exact .none
      | some qty =>
        cases moment.minute config data with
        | none => exact .none
        | some minute => exact .some ⟨rfl, same, rfl, rfl⟩

theorem seenDelivered_of_order {strategyId : String} {order : Order}
    (running : world.halted = false) (admitted : moment.admits config world data = true)
    (ordered : moment.orderFor config world data strategyId = some order) :
    moment.seenDelivered config world data strategyId =
      moment.seenSubmitted config data order world := by
  rw [orderFor] at ordered
  split at ordered
  · rename_i parsed accepted
    rw [seenDelivered_of_admitted running admitted accepted, seenOrdered, ordered]
  · cases ordered

theorem seenDelivered_of_no_order {strategyId : String}
    (unordered : moment.orderFor config world data strategyId = none) :
    moment.seenDelivered config world data strategyId = world.seen := by
  rw [orderFor] at unordered
  rw [seenDelivered]
  cases accepted : parseDecisionFields strategyId "" data with
  | error reason => rfl
  | ok parsed =>
      rw [accepted] at unordered
      dsimp only at unordered ⊢
      split
      · rw [seenOrdered, unordered]
      · rfl

/-! ## Runs -/

def drawing (moment : Moment) (uuid : String) : Moment :=
  { moment with ids := fun drawn => drawn = uuid, drawn := ⟨uuid, rfl⟩ }

theorem passGates_exec {choices : ℕ → Choice} (permitted : ∀ n, moment.Permits (choices n)) :
    ((passGates config data).exec engineHandler choices world).1 = .ok true ↔
      moment.admits config world data = true :=
  Handler.exec_of_wp wp_passGates choices permitted

theorem deliver_seen {choices : ℕ → Choice} (permitted : ∀ n, moment.Permits (choices n)) :
    ∃ strategyId, moment.ids strategyId ∧ (deliver config world ⟨data, choices⟩).seen =
      moment.seenDelivered config world data strategyId :=
  Handler.exec_of_wp wp_process choices permitted

/-- Every id that may be drawn is drawn in some run. -/
theorem deliver_seen_of_drawn (uuid : String) :
    (deliver config world ⟨data, fun _ => moment.choice uuid⟩).seen =
      moment.seenDelivered config world data uuid := by
  obtain ⟨strategyId, drawn, seen⟩ := @deliver_seen (moment.drawing uuid) config world data
    (fun _ => moment.choice uuid) fun _ => (moment.drawing uuid).permits_choice rfl
  obtain rfl : strategyId = uuid := drawn
  exact seen

variable (moment config world data action side)

/-- At a moment neither what the gates say nor what is left to be seen depends on the spelling. -/
structure TreatsAlike : Prop where
  gates : ∀ choices others, (∀ n, moment.Permits (choices n)) → (∀ n, moment.Permits (others n)) →
    (((passGates config data).exec engineHandler choices world).1 = .ok true ↔
      ((passGates config (data.respelled action side)).exec engineHandler others world).1 =
        .ok true)
  seen : ∀ choices others, (∀ n, moment.Permits (choices n)) → (∀ n, moment.Permits (others n)) →
    (deliver config world ⟨data, choices⟩).seen =
      (deliver config world ⟨data.respelled action side, others⟩).seen

/-- A decision that passes the common gates passes the checks of its plain spelling, and an order
that gets through has a key of either spelling recorded or neither. -/
structure SpellingFree : Prop where
  checks : ∀ parsed, parseDecisionFields "" "" data = .ok parsed →
    moment.commonGates config world data parsed = true →
    moment.plainChecks config world data parsed = true
  keys : world.halted = false → ∀ parsed, parseDecisionFields "" "" data = .ok parsed →
    moment.commonGates config world data parsed = true →
    ∀ strategyId otherId, moment.ids strategyId → moment.ids otherId →
    ∀ order ∈ moment.orderFor config world data strategyId,
    ∀ other ∈ moment.orderFor config world (data.respelled action side) otherId,
    world.Submits config order →
    moment.recorded world order.idempotencyKey = moment.recorded world other.idempotencyKey

variable {moment config world data action side}

/-- Both spellings pass the gates or neither, exactly when the plain checks add nothing. -/
theorem admits_eq_iff (aliases : data.Aliases action side) :
    moment.admits config world data = moment.admits config world (data.respelled action side) ↔
      ∀ parsed, parseDecisionFields "" "" data = .ok parsed →
        moment.commonGates config world data parsed = true →
        moment.plainChecks config world data parsed = true := by
  cases accepted : parseDecisionFields "" "" data with
  | error reason =>
      have other : parseDecisionFields "" "" (data.respelled action side) = .error reason := by
        rw [parseDecisionFields_respelled aliases, accepted]
        rfl
      rw [admits_of_unparsed accepted, admits_of_unparsed other]
      exact iff_of_true rfl fun parsed impossible => by cases impossible
  | ok parsed =>
      rw [admits_plain aliases accepted, admits_respelled aliases accepted]
      constructor
      · rintro same _ ⟨⟩ common
        rw [common, Bool.true_and] at same
        exact same
      · intro checks
        cases common : moment.commonGates config world data parsed with
        | false => rfl
        | true => rw [checks parsed rfl common, Bool.and_true]

/-- Two orders for the same trade leave the same exactly when both keys are known or neither. -/
theorem seenSubmitted_eq_iff {order other : Order} (trade : SameTrade order other)
    (submits : world.Submits config order) :
    moment.seenSubmitted config data order world =
        moment.seenSubmitted config (data.respelled action side) other world ↔
      moment.recorded world order.idempotencyKey = moment.recorded world other.idempotencyKey := by
  have free := submits.1
  have otherFree : world.redis (.orderLock other.symbol) = none := by rw [trade.symbol, free]
  have changed : moment.seenAdmitted config data order world.seen ≠ world.seen :=
    seenAdmitted_ne submits
  have same : moment.seenAdmitted config (data.respelled action side) other world.seen =
      moment.seenAdmitted config data order world.seen :=
    seenAdmitted_of_sameTrade trade world.seen
  cases known : moment.recorded world order.idempotencyKey with
  | true =>
    rw [seenSubmitted_of_recorded known]
    cases otherKnown : moment.recorded world other.idempotencyKey with
    | true =>
      rw [seenSubmitted_of_recorded otherKnown]
      exact iff_of_true rfl rfl
    | false =>
      rw [seenSubmitted_of_free otherKnown otherFree, same]
      exact iff_of_false changed.symm (by decide)
  | false =>
    rw [seenSubmitted_of_free known free]
    cases otherKnown : moment.recorded world other.idempotencyKey with
    | true =>
      rw [seenSubmitted_of_recorded otherKnown]
      exact iff_of_false changed (by decide)
    | false =>
      rw [seenSubmitted_of_free otherKnown otherFree, same]
      exact iff_of_true rfl rfl

/-- A trade of one spelling that does not get through does not get through in the other. -/
theorem not_submits_of_sameTrade {order other : Order} (trade : SameTrade order other)
    (stopped : ¬world.Submits config order) : ¬world.Submits config other := by
  rintro ⟨free, qty, admitted⟩
  rw [trade.symbol, trade.qty, trade.side.admission] at admitted
  rw [trade.symbol] at free
  exact stopped ⟨free, qty, admitted⟩

theorem gates_iff :
    (∀ choices others, (∀ n, moment.Permits (choices n)) → (∀ n, moment.Permits (others n)) →
      (((passGates config data).exec engineHandler choices world).1 = .ok true ↔
        ((passGates config (data.respelled action side)).exec engineHandler others world).1 =
          .ok true)) ↔
      moment.admits config world data =
        moment.admits config world (data.respelled action side) := by
  obtain ⟨uuid, drawn⟩ := moment.drawn
  constructor
  · intro gates
    have constant : ∀ _ : ℕ, moment.Permits (moment.choice uuid) :=
      fun _ => moment.permits_choice drawn
    have verdict := gates _ _ constant constant
    rw [passGates_exec constant, passGates_exec constant] at verdict
    exact Bool.eq_iff_iff.mpr verdict
  · intro same choices others permitted otherPermitted
    rw [passGates_exec permitted, passGates_exec otherPermitted, same]

theorem orderFor_respelled_eq_none (aliases : data.Aliases action side) {strategyId other : String}
    (none : moment.orderFor config world data strategyId = none) :
    moment.orderFor config world (data.respelled action side) other = .none := by
  have trades := @orderFor_respelled moment config world data action side aliases strategyId other
  rw [none] at trades
  cases unordered : moment.orderFor config world (data.respelled action side) other with
  | none => rfl
  | some order =>
    rw [unordered] at trades
    cases trades

theorem sameTrade_of_orderFor (aliases : data.Aliases action side) {strategyId otherId : String}
    {order other : Order} (ordered : moment.orderFor config world data strategyId = some order)
    (otherOrdered : moment.orderFor config world (data.respelled action side) otherId =
      some other) : SameTrade order other := by
  have trades := @orderFor_respelled moment config world data action side aliases strategyId
    otherId
  rw [ordered, otherOrdered] at trades
  cases trades
  assumption

/-- An admitted trade leaves the same in both spellings where the keys agree. -/
theorem seenDelivered_respelled (aliases : data.Aliases action side)
    (same : moment.admits config world data =
      moment.admits config world (data.respelled action side)) {strategyId otherId : String}
    (keys : world.halted = false → moment.admits config world data = true →
      ∀ order ∈ moment.orderFor config world data strategyId,
      ∀ other ∈ moment.orderFor config world (data.respelled action side) otherId,
      world.Submits config order →
      moment.recorded world order.idempotencyKey = moment.recorded world other.idempotencyKey) :
    moment.seenDelivered config world data strategyId =
      moment.seenDelivered config world (data.respelled action side) otherId := by
  cases stopped : !world.halted && moment.admits config world data with
  | false =>
    have otherStopped := stopped
    rw [same] at otherStopped
    rw [seenDelivered_of_stopped stopped, seenDelivered_of_stopped otherStopped]
  | true =>
    rw [Bool.and_eq_true, Bool.not_eq_true'] at stopped
    obtain ⟨running, admitted⟩ := stopped
    have otherAdmitted := admitted
    rw [same] at otherAdmitted
    cases ordered : moment.orderFor config world data strategyId with
    | none =>
      rw [seenDelivered_of_no_order ordered,
        seenDelivered_of_no_order (orderFor_respelled_eq_none aliases ordered)]
    | some order =>
      have trades := @orderFor_respelled moment config world data action side aliases strategyId
        otherId
      rw [ordered] at trades
      cases otherOrdered : moment.orderFor config world (data.respelled action side) otherId with
      | none =>
        rw [otherOrdered] at trades
        cases trades
      | some other =>
        have trade := sameTrade_of_orderFor aliases ordered otherOrdered
        rw [seenDelivered_of_order running admitted ordered,
          seenDelivered_of_order running otherAdmitted otherOrdered]
        by_cases submits : world.Submits config order
        · exact (seenSubmitted_eq_iff trade submits).mpr
            (keys running admitted order ordered other otherOrdered submits)
        · rw [seenSubmitted_of_not_submits submits,
            seenSubmitted_of_not_submits (not_submits_of_sameTrade trade submits)]

end Moment

/-- At a moment the two spellings of a side are treated alike exactly when the plain one meets no
check of its own and both keys are known or neither. -/
theorem spellings_alike_iff (moment : Moment) (config : Config) (world : World) (data : Decision)
    (action side : Option String) (aliases : data.Aliases action side) :
    moment.TreatsAlike config world data action side ↔
      moment.SpellingFree config world data action side := by
  constructor
  · rintro ⟨gates, seen⟩
    have same := Moment.gates_iff.mp gates
    have checks := (Moment.admits_eq_iff aliases).mp same
    refine ⟨checks, ?_⟩
    intro running parsed accepted common strategyId otherId drawn otherDrawn order ordered other
      otherOrdered submits
    have admitted : moment.admits config world data = true := by
      rw [Moment.admits_plain aliases accepted, common, checks parsed accepted common]
      rfl
    have otherAdmitted := admitted
    rw [same] at otherAdmitted
    have left := seen _ _ (fun _ => moment.permits_choice drawn) fun _ =>
      moment.permits_choice otherDrawn
    rw [Moment.deliver_seen_of_drawn, Moment.deliver_seen_of_drawn,
      Moment.seenDelivered_of_order running admitted ordered,
      Moment.seenDelivered_of_order running otherAdmitted otherOrdered] at left
    have trade := Moment.sameTrade_of_orderFor aliases ordered otherOrdered
    exact (Moment.seenSubmitted_eq_iff trade submits).mp left
  · rintro ⟨checks, keys⟩
    have same := (Moment.admits_eq_iff aliases).mpr checks
    refine ⟨Moment.gates_iff.mpr same, fun choices others permitted otherPermitted => ?_⟩
    obtain ⟨strategyId, drawn, left⟩ := @Moment.deliver_seen moment config world data _ permitted
    obtain ⟨otherId, otherDrawn, right⟩ :=
      @Moment.deliver_seen moment config world (data.respelled action side) _ otherPermitted
    rw [left, right]
    refine Moment.seenDelivered_respelled aliases same fun running admitted order ordered other
      otherOrdered submits => ?_
    cases accepted : parseDecisionFields "" "" data with
    | error reason =>
      rw [Moment.admits_of_unparsed accepted] at admitted
      cases admitted
    | ok parsed =>
      have common : moment.commonGates config world data parsed = true := by
        rw [Moment.admits_plain aliases accepted, Bool.and_eq_true] at admitted
        exact admitted.1
      exact keys running parsed accepted common strategyId otherId drawn otherDrawn order ordered
        other otherOrdered submits

/-- On a paper engine nobody has traded with, `LONG` buys the same bitcoin as `buy`. -/
theorem spellings_alike_paper :
    ({} : Moment).TreatsAlike {} freshWorld (bitcoinDecision "buy") (some "LONG") none := by
  refine (spellings_alike_iff {} {} freshWorld (bitcoinDecision "buy") (some "LONG") none
    (by decide +kernel)).mpr
    ⟨fun parsed accepted common => ?_, fun _ _ _ _ _ _ _ _ _ _ _ _ _ => rfl⟩
  have known : parseDecisionFields "" "" (bitcoinDecision "buy") = .ok
      { side := "buy", symbol := "BTC/USD", qty := 1, price := 100, strategyId := "momentum",
        traceId := "trace" } := by decide +kernel
  rw [known] at accepted
  cases accepted
  decide +kernel

/-- A live engine refuses a fallback decision to `buy` and lets the same decision go `long`. -/
theorem spellings_differ :
    ¬∀ (moment : Moment) (config : Config) (world : World) (data : Decision)
      (action side : Option String), data.Aliases action side →
      moment.TreatsAlike config world data action side := by
  intro always
  have alike := always {} { settings := { brokerMode := "live", alpacaPaper := false } } freshWorld
    { bitcoinDecision "buy" with llmSucceeded := some false } (some "long") none
    (by decide +kernel)
  have same := Moment.gates_iff.mp alike.gates
  revert same
  decide +kernel

end TradingControl
