import TradingControl.Execution.Trades

/-!
# A long-only, capped book

The guards and clamps of both paths each name a set of side strings, while the broker sells on every
string that is not a buy.  A side that every guard overlooks is therefore a sell nothing clamps.
With every side named by a guard, or no more asked for than is held, the book stays long and capped
over every run of deliveries.
-/

namespace TradingControl

open Effects Python

/-- A holding of a long-only book: nothing or a long position of at most `cap`. -/
structure Position.LongWithin (cap : ℚ) (position : Position) : Prop where
  nonneg : 0 ≤ position.qty
  capped : position.qty ≤ cap
  side : position.side = "long" ∨ position.side = "flat"

/-- Every holding is long and at most `cap`. -/
def Book.LongWithin (cap : ℚ) (book : Book) : Prop :=
  ∀ symbol, (book.position symbol).LongWithin cap

/-- No position is open. -/
def Book.Flat (book : Book) : Prop :=
  ∀ symbol, (book.position symbol).side = "flat" ∧ (book.position symbol).qty = 0

theorem Book.Flat.longWithin {book : Book} (flat : book.Flat) {cap : ℚ} (positive : 0 < cap) :
    book.LongWithin cap := by
  intro symbol
  obtain ⟨side, qty⟩ := flat symbol
  exact ⟨qty.ge, qty.trans_le positive.le, Or.inr side⟩

theorem Position.fill_side (prior : Position) (side : String) (qty fillPrice : ℚ) (now : String) :
    (prior.fill side qty fillPrice now).side =
      if |prior.qty + qty * direction side| < dust then "flat"
      else if 0 < prior.qty + qty * direction side then "long" else "short" := by
  unfold Position.fill
  simp only
  split_ifs <;> rfl

namespace Position.LongWithin

variable {cap : ℚ} {prior : Position}

theorem signed (long : prior.LongWithin cap) : signedPositionQty prior = prior.qty := by
  have named : sideStr "long" = "long" ∧ sideStr "flat" = "flat" := by decide
  rcases long.side with side | side
  · simp [signedPositionQty, side, named, abs_of_nonneg long.nonneg]
  · simp [signedPositionQty, side, named]

end Position.LongWithin

/-- A fill that stays inside the bounds leaves a long-only holding. -/
theorem Position.longWithin_fill {cap : ℚ} {prior : Position} (side : String) (qty fillPrice : ℚ) (now : String)
    (nonneg : 0 ≤ prior.qty + qty * direction side)
    (capped : prior.qty + qty * direction side ≤ cap) :
    (prior.fill side qty fillPrice now).LongWithin cap := by
  refine ⟨by simpa using nonneg, by simpa using capped, ?_⟩
  rw [Position.fill_side]
  split
  · exact Or.inr rfl
  rename_i open_
  have positive : 0 < prior.qty + qty * direction side := by
    rcases nonneg.lt_or_eq with positive | zero
    · exact positive
    · rw [← zero] at open_
      exact absurd (by norm_num [dust]) open_
  rw [if_pos positive]
  exact Or.inl rfl

/-! ## Admitted orders -/

/-- An admitted buy ends at most at the cap, an admitted sell at least at zero. -/
theorem admitted_bounds {settings : Settings} {side : String} {sized qty : ℚ} {prior : Position}
    (long : prior.LongWithin settings.maxPosition) (positive : 0 < sized)
    (admitted : admission settings side sized prior = .submit qty)
    (named : isBuy side = true ∨ isSell side = true ∨ sized ≤ prior.qty) :
    0 < qty ∧ (isBuy side = true → prior.qty + qty ≤ settings.maxPosition) ∧
      (isBuy side = false → qty ≤ prior.qty) := by
  cases buy : isBuy side with
  | true =>
      obtain ⟨room, taken⟩ := admission_buy buy admitted
      rw [long.signed] at taken
      have within := min_le_right sized (settings.maxPosition - prior.qty)
      exact ⟨room, fun _ => by linarith, by simp⟩
  | false =>
      cases sell : isSell side with
      | true =>
          obtain ⟨⟨-, held⟩, taken⟩ := admission_sell sell admitted
          refine ⟨?_, by simp, fun _ => ?_⟩
          · rw [taken]
            exact lt_min positive held
          · rw [taken]
            exact min_le_right _ _
      | false =>
          have small : sized ≤ prior.qty := by simpa [buy, sell] using named
          rw [admission_other buy sell admitted]
          exact ⟨positive, by simp, fun _ => small⟩

/-- Writing the position of an admitted order keeps the book long and capped. -/
theorem Book.LongWithin.fill {faults : Prop} {config : Config} {data : Decision}
    {book : Book} {parsed : ParsedDecision} {order : Order} {qty : ℚ}
    (long : book.LongWithin config.settings.maxPosition)
    (prepared : Prepared faults config data book parsed order)
    (admitted : admission config.settings order.side order.qty (book.position order.symbol) =
      .submit qty)
    (named : recognisedSide order.side = true ∨
      order.qty ≤ (book.position order.symbol).qty)
    (fillPrice : ℚ) (now : String) :
    (book.fill order.symbol order.side qty fillPrice now).LongWithin config.settings.maxPosition := by
  have tradable : isNoOrderAction order.side = false := by
    rw [prepared.side]
    exact prepared.tradable
  have sided : isBuy order.side = true ∨ isSell order.side = true ∨
      order.qty ≤ (book.position order.symbol).qty := by
    rcases named with recognised | small
    · simp only [recognisedSide, tradable, Bool.or_false, Bool.or_eq_true] at recognised
      rcases recognised with buy | sell
      · exact Or.inl buy
      · exact Or.inr (Or.inl sell)
    · exact Or.inr (Or.inr small)
  obtain ⟨positive, buys, sells⟩ :=
    admitted_bounds (long order.symbol) prepared.qty_pos admitted sided
  have held := long order.symbol
  intro symbol
  by_cases same : symbol = order.symbol
  · subst same
    rw [Book.fill_position_self]
    cases buy : isBuy order.side with
    | true =>
        have up : direction order.side = 1 := by rw [prepared.direction_eq, if_pos buy]
        apply Position.longWithin_fill
        · rw [up]
          linarith [held.nonneg]
        · rw [up]
          linarith [buys buy]
    | false =>
        have down : direction order.side = -1 := by simp [prepared.direction_eq, buy]
        apply Position.longWithin_fill
        · rw [down]
          linarith [sells buy]
        · rw [down]
          linarith [held.capped]
  · rw [Book.fill_position_other _ same]
    exact long symbol

theorem Book.LongWithin.congr {cap : ℚ} {before after : Book} (long : before.LongWithin cap)
    (position : after.position = before.position) : after.LongWithin cap := by
  intro symbol
  rw [position]
  exact long symbol

/-- With a side that a guard names, no interruption of Redis breaks the bounds either. -/
theorem Churned.longWithin {faults : Prop} {config : Config} {data : Decision}
    {before after : Book} (named : recognisedSide data.sideOrAction = true)
    (churned : Churned faults config data before after)
    (long : before.LongWithin config.settings.maxPosition) :
    after.LongWithin config.settings.maxPosition := by
  induction churned with
  | settled => exact long
  | cash _ position held => exact held.congr position
  | position _ prepared admitted position held =>
      rw [← prepared.side_eq] at named
      exact (held.fill prepared admitted (Or.inl named) _ _).congr position

/-! ## One delivery -/

/-- Some guard names the side of the decision, or Redis answers throughout the delivery and the
decision sizes to no more than the symbol's holding. -/
def SideGuarded (world : World) (delivery : Delivery) : Prop :=
  recognisedSide delivery.data.sideOrAction = true ∨
    (∀ n, (delivery.choices n).redisFails = false) ∧
      ∀ strategyId traceId parsed sizePct,
        parseDecisionFields strategyId traceId delivery.data = .ok parsed →
        delivery.data.sizePct.toFloatOrZero = some sizePct →
        sizedQty sizePct world.book.cash parsed.qty parsed.price ≤
          (world.book.position parsed.symbol).qty

/-- A guarded delivery keeps the book long and capped, whatever fails meanwhile. -/
theorem longWithin_deliver {config : Config} {world : World} {delivery : Delivery}
    (guarded : SideGuarded world delivery)
    (long : world.book.LongWithin config.settings.maxPosition) :
    (deliver config world delivery).book.LongWithin config.settings.maxPosition := by
  rcases guarded with named | ⟨redis, small⟩
  · have trades : Trades True config delivery.data world (deliver config world delivery) :=
      trades_of_process config delivery world fun _ _ => trivial
    cases trades with
    | uncommitted executed => exact executed.churned.longWithin named long
    | committed fill rows =>
        obtain ⟨⟨parsed, prepared⟩, admitted, ⟨now, book⟩, -⟩ := fill
        rw [book]
        rw [← prepared.side_eq] at named
        exact long.fill prepared admitted (Or.inl named) _ _
  · rcases untouched_or_filled config delivery world redis with
      untouched | ⟨order, qty, slippage, fill⟩
    · rw [untouched.book]
      exact long
    · obtain ⟨⟨parsed, prepared⟩, admitted, ⟨now, book⟩, -⟩ := fill
      obtain ⟨sizePct, found, sized⟩ := prepared.sizedQty_eq
      obtain ⟨strategyId, traceId, accepted⟩ := prepared.accepted
      have within : order.qty ≤ (world.book.position order.symbol).qty := by
        rw [sized, prepared.symbol]
        exact small strategyId traceId parsed sizePct accepted found
      rw [book]
      exact long.fill prepared admitted (Or.inr within) _ _

/-! ## Whole runs -/

/-- Worlds reached by deliveries that each meet a condition in the world they are made in. -/
inductive Reaches (config : Config) (condition : World → Delivery → Prop) (start : World) :
    World → Prop
  | start : Reaches config condition start start
  | deliver {world : World} (delivery : Delivery) (reached : Reaches config condition start world)
      (met : condition world delivery) :
      Reaches config condition start (deliver config world delivery)

/-- A world in which nothing has been traded yet. -/
def freshWorld : World where
  redis _ := none

theorem freshWorld_flat : freshWorld.book.Flat := fun _ => ⟨rfl, rfl⟩

/-- A decision on one bitcoin, from a strategy that is sure of it. -/
def bitcoinDecision (action : String) : Decision where
  action := some action
  symbol := some "BTC/USD"
  qty := .number 1
  price := .number 100
  strategyId := some "momentum"
  traceId := some "trace"
  timestamp := some "2026-01-01T00:00:00Z"
  signalConfidence := .number 1

/-- A delivery in a world where nothing fails. -/
def calmDelivery (data : Decision) : Delivery where
  data := data
  choices _ := {}

/-- From a flat book, guarded deliveries never open a short and never exceed the cap. -/
theorem longOnly_of_reaches {config : Config} {start world : World}
    (exposure : 0 < config.settings.maxSymbolExposure)
    (position : 0 < config.settings.maxOpenPositionQty) (flat : start.book.Flat)
    (reached : Reaches config SideGuarded start world) (symbol : String) :
    0 ≤ (world.book.position symbol).qty ∧
      (world.book.position symbol).qty ≤
        min config.settings.maxSymbolExposure config.settings.maxOpenPositionQty := by
  have long : world.book.LongWithin config.settings.maxPosition := by
    induction reached with
    | start => exact flat.longWithin (lt_min exposure position)
    | deliver delivery _ guarded held => exact longWithin_deliver guarded held
  exact ⟨(long symbol).nonneg, (long symbol).capped⟩

/-- One bought bitcoin is such a run. -/
theorem longOnly_bought :
    0 ≤ ((deliver {} freshWorld (calmDelivery (bitcoinDecision "buy"))).book.position
        "BTC/USD").qty ∧
      ((deliver {} freshWorld (calmDelivery (bitcoinDecision "buy"))).book.position
        "BTC/USD").qty ≤ min 1 1 :=
  longOnly_of_reaches (by norm_num) (by norm_num) freshWorld_flat
    (.deliver (calmDelivery (bitcoinDecision "buy")) .start (Or.inl (by decide))) "BTC/USD"

/-- No guard names `close`, so the broker sells what nobody holds. -/
theorem close_opens_short :
    freshWorld.book.Flat ∧
      ((deliver {} freshWorld (calmDelivery (bitcoinDecision "close"))).book.position
        "BTC/USD").qty < 0 :=
  ⟨freshWorld_flat, by decide +kernel⟩

end TradingControl
