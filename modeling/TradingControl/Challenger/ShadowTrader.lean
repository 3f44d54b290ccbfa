import Mathlib.Data.List.Chain
import TradingControl.Backtest.Strategies

/-!
# Shadow trades

A strategy is run on live prices without touching capital.  Every price extends the history of its
symbol, the strategy decides on the bar, and a decision against the open position closes it and
opens one the other way.  So the trades of a symbol take turns, each one is entered where the one
before is left, and the metrics are what the trades of all symbols add up to.
-/

namespace TradingControl.Challenger

open Python Backtest

/-- A shadow position of one unit. -/
structure OpenPosition where
  /-- `1` is long, `-1` short and `0` flat. -/
  direction : ℤ := 0
  entryPrice : ℚ := 0
  entryIndex : ℕ := 0
deriving DecidableEq

/-- A closed round trip. -/
structure ShadowTrade where
  symbol : String
  direction : String
  entryPrice : ℚ
  exitPrice : ℚ
  pnl : ℚ
  barsHeld : ℤ
deriving DecidableEq

/-- What the closed trades add up to. -/
structure ShadowMetrics where
  trades : ℕ := 0
  wins : ℕ := 0
  realizedPnl : ℚ := 0
  pnls : List ℚ := []
deriving DecidableEq

namespace ShadowMetrics

variable (metrics : ShadowMetrics)

def winRate : ℚ := if metrics.trades = 0 then 0 else metrics.wins / metrics.trades

/-- Mean over the population deviation, from two trades on. -/
def sharpe (sqrt : ℚ → ℚ) : ℚ :=
  let n := metrics.pnls.length
  if n < 2 then 0
  else
    let mean := metrics.realizedPnl / n
    let sd := sqrt ((metrics.pnls.map fun pnl => (pnl - mean) ^ 2).sum / n)
    if 0 < sd then mean / sd else 0

/-- Count a closed trade. -/
def add (pnl : ℚ) : ShadowMetrics where
  trades := metrics.trades + 1
  wins := if 0 < pnl then metrics.wins + 1 else metrics.wins
  realizedPnl := metrics.realizedPnl + pnl
  pnls := metrics.pnls ++ [pnl]

end ShadowMetrics

/-- `history_maxlen`. -/
def historyMaxlen : ℕ := 50

/-- A `ShadowTradeEngine`, but for its strategy. -/
structure ShadowTradeEngine where
  history : String → List ℚ := fun _ => []
  positions : String → OpenPosition := fun _ => {}
  index : ℕ := 0
  metrics : ShadowMetrics := {}

namespace ShadowTradeEngine

variable (engine : ShadowTradeEngine)

def bar (symbol : String) (price : ℚ) : Bar :=
  let prevPrice := (engine.history symbol).getLast?.getD price
  { index := engine.index + 1
    price
    prevPrice
    pct := if prevPrice ≠ 0 then (price - prevPrice) / prevPrice * 100 else 0
    history := lastItems historyMaxlen (engine.history symbol ++ [price]) }

def decision (strategy : Strategy) (symbol : String) (price : ℚ) : String :=
  lower (strategy (engine.bar symbol price))

/-- The engine once it has seen a bar. -/
def seeBar (symbol : String) (bar : Bar) : ShadowTradeEngine :=
  { engine with
    history := Function.update engine.history symbol bar.history
    index := bar.index }

/-- `_close`. -/
def close (symbol : String) (price : ℚ) : Option ShadowTrade × ShadowTradeEngine :=
  let position := engine.positions symbol
  if position.direction = 0 then (none, engine)
  else
    let pnl :=
      if position.direction = 1 then price - position.entryPrice else position.entryPrice - price
    (some {
        symbol
        direction := if position.direction = 1 then "long" else "short"
        entryPrice := position.entryPrice
        exitPrice := price
        pnl
        barsHeld := (engine.index : ℤ) - position.entryIndex },
      { engine with metrics := engine.metrics.add pnl })

/-- Direction of an action, unless it keeps the position. -/
def target (action : String) : Option ℤ :=
  if action = "buy" then some 1 else if action = "sell" then some (-1) else none

/-- `_apply_action`. -/
def applyAction (symbol action : String) (price : ℚ) : Option ShadowTrade × ShadowTradeEngine :=
  match target action with
  | none => (none, engine)
  | some direction =>
      if (engine.positions symbol).direction = direction then (none, engine)
      else
        let (closed, engine) := engine.close symbol price
        (closed,
          { engine with
            positions := Function.update engine.positions symbol
              { direction, entryPrice := price, entryIndex := engine.index } })

/-- `observe`. -/
def observe (strategy : Strategy) (symbol : String) (price : ℚ) :
    Option ShadowTrade × ShadowTradeEngine :=
  if symbol = "" ∨ price ≤ 0 then (none, engine)
  else
    (engine.seeBar symbol (engine.bar symbol price)).applyAction symbol
      (engine.decision strategy symbol price) price

/-! ## What one price does -/

/-- A price changes no position, opens the first one of its symbol, or closes the one that is open
and opens the other way. -/
inductive Observed (engine : ShadowTradeEngine) (symbol : String) (price : ℚ) :
    Option ShadowTrade → ShadowTradeEngine → Prop where
  | kept (after : ShadowTradeEngine) (positions : after.positions = engine.positions)
      (metrics : after.metrics = engine.metrics) : Observed engine symbol price none after
  | opened (after : ShadowTradeEngine) (position : OpenPosition)
      (flat : (engine.positions symbol).direction = 0)
      (side : position.direction = 1 ∨ position.direction = -1)
      (entry : position.entryPrice = price)
      (positions : after.positions = Function.update engine.positions symbol position)
      (metrics : after.metrics = engine.metrics) : Observed engine symbol price none after
  | flipped (after : ShadowTradeEngine) (position : OpenPosition) (trade : ShadowTrade)
      (held : (engine.positions symbol).direction ≠ 0)
      (side : position.direction = 1 ∨ position.direction = -1)
      (other : (engine.positions symbol).direction ≠ position.direction)
      (entry : position.entryPrice = price)
      (ofSymbol : trade.symbol = symbol)
      (direction : trade.direction =
        if (engine.positions symbol).direction = 1 then "long" else "short")
      (entered : trade.entryPrice = (engine.positions symbol).entryPrice)
      (exited : trade.exitPrice = price)
      (pnl : trade.pnl = if (engine.positions symbol).direction = 1
        then trade.exitPrice - trade.entryPrice else trade.entryPrice - trade.exitPrice)
      (positions : after.positions = Function.update engine.positions symbol position)
      (metrics : after.metrics = engine.metrics.add trade.pnl) :
      Observed engine symbol price (some trade) after

theorem target_side {action : String} {direction : ℤ} (decided : target action = some direction) :
    direction = 1 ∨ direction = -1 := by
  rw [target] at decided
  split_ifs at decided
  · exact .inl (Option.some.inj decided).symm
  · exact .inr (Option.some.inj decided).symm

theorem applyAction_observed (symbol action : String) (price : ℚ) :
    Observed engine symbol price (engine.applyAction symbol action price).1
      (engine.applyAction symbol action price).2 := by
  rw [applyAction]
  cases decided : target action with
  | none => exact .kept engine rfl rfl
  | some direction =>
      have side := target_side decided
      by_cases same : (engine.positions symbol).direction = direction
      · simp only [if_pos same]
        exact .kept engine rfl rfl
      · by_cases flat : (engine.positions symbol).direction = 0
        · simp only [if_neg same, close, if_pos flat]
          exact .opened _ ⟨direction, price, engine.index⟩ flat side rfl rfl rfl
        · simp only [if_neg same, close, if_neg flat]
          exact .flipped _ ⟨direction, price, engine.index⟩ _ flat side same rfl rfl rfl rfl rfl
            rfl rfl rfl

theorem observe_observed (strategy : Strategy) (symbol : String) (price : ℚ) :
    Observed engine symbol price (engine.observe strategy symbol price).1
      (engine.observe strategy symbol price).2 := by
  rw [observe]
  split_ifs
  · exact .kept engine rfl rfl
  · have step := (engine.seeBar symbol (engine.bar symbol price)).applyAction_observed symbol
      (engine.decision strategy symbol price) price
    generalize (engine.seeBar symbol (engine.bar symbol price)).applyAction symbol
      (engine.decision strategy symbol price) price = outcome at step
    obtain ⟨closed, after⟩ := outcome
    cases step with
    | kept _ positions metrics => exact .kept after positions metrics
    | opened _ position flat side entry positions metrics =>
        exact .opened after position flat side entry positions metrics
    | flipped _ position trade held side other entry ofSymbol direction entered exited pnl positions
        metrics =>
        exact .flipped after position trade held side other entry ofSymbol direction entered exited
          pnl positions metrics

end ShadowTradeEngine

/-! ## The account of a symbol -/

def side (direction : ℤ) : String := if direction = 1 then "long" else "short"

theorem side_eq_long_iff (direction : ℤ) : side direction = "long" ↔ direction = 1 := by
  rw [side]
  split_ifs with long
  · exact iff_of_true rfl long
  · exact iff_of_false (by decide) long

theorem side_ne {first second : ℤ} (firstSide : first = 1 ∨ first = -1)
    (secondSide : second = 1 ∨ second = -1) (other : first ≠ second) :
    side first ≠ side second := by
  rcases firstSide with rfl | rfl
  · rcases secondSide with rfl | rfl
    · exact absurd rfl other
    · decide
  · rcases secondSide with rfl | rfl
    · decide
    · exact absurd rfl other

/-- The next trade is on the other side and is entered where this one is left. -/
def ShadowTrade.FollowedBy (first second : ShadowTrade) : Prop :=
  first.direction ≠ second.direction ∧ first.exitPrice = second.entryPrice

def OpenPosition.entries (position : OpenPosition) : List (String × ℚ) :=
  if position.direction = 0 then [] else [(side position.direction, position.entryPrice)]

/-- The closed trades of a symbol, the entries of its positions and the position it has: every
position but that one is closed by a trade. -/
structure Account (position : OpenPosition) (trades : List ShadowTrade)
    (entries : List (String × ℚ)) : Prop where
  alternate : trades.IsChain ShadowTrade.FollowedBy
  last : ∀ trade ∈ trades.getLast?,
    trade.direction ≠ side position.direction ∧ trade.exitPrice = position.entryPrice
  flat : position.direction = 0 → trades = []
  sided : position.direction = 0 ∨ position.direction = 1 ∨ position.direction = -1
  entered : entries =
    trades.map (fun trade => (trade.direction, trade.entryPrice)) ++ position.entries

namespace Account

variable {position next : OpenPosition} {trades : List ShadowTrade} {entries : List (String × ℚ)}

theorem empty : Account {} [] [] where
  alternate := List.isChain_nil
  last _ listed := nomatch listed
  flat _ := rfl
  sided := .inl rfl
  entered := rfl

theorem opened (account : Account position trades entries) (flat : position.direction = 0)
    (sided : next.direction = 1 ∨ next.direction = -1) :
    Account next trades (entries ++ [(side next.direction, next.entryPrice)]) := by
  obtain rfl := account.flat flat
  have held : next.direction ≠ 0 := by omega
  have entered := account.entered
  rw [List.map_nil, List.nil_append, OpenPosition.entries, if_pos flat] at entered
  refine ⟨List.isChain_nil, ?_, fun _ => rfl, .inr sided, ?_⟩
  · intro trade listed
    cases listed
  · rw [entered, OpenPosition.entries, if_neg held]
    rfl

theorem flipped (account : Account position trades entries) {trade : ShadowTrade}
    (held : position.direction ≠ 0) (sided : next.direction = 1 ∨ next.direction = -1)
    (other : position.direction ≠ next.direction)
    (direction : trade.direction = side position.direction)
    (entry : trade.entryPrice = position.entryPrice) (exit : next.entryPrice = trade.exitPrice) :
    Account next (trades ++ [trade])
      (entries ++ [(side next.direction, next.entryPrice)]) := by
  have was := account.sided.resolve_left held
  have opens : next.direction ≠ 0 := by omega
  refine ⟨?_, ?_, fun flat => absurd flat opens, .inr sided, ?_⟩
  · refine List.isChain_append.mpr ⟨account.alternate, List.isChain_singleton trade, ?_⟩
    intro earlier listed first head
    obtain rfl : trade = first := Option.some.inj head
    obtain ⟨turned, met⟩ := account.last earlier listed
    exact ⟨by rw [direction]; exact turned, met.trans entry.symm⟩
  · intro last listed
    rw [List.getLast?_concat] at listed
    obtain rfl : trade = last := Option.some.inj listed
    exact ⟨by rw [direction]; exact side_ne was sided other, exit.symm⟩
  · rw [account.entered, OpenPosition.entries, if_neg held, OpenPosition.entries, if_neg opens,
      List.map_append, List.map_singleton, direction, entry]

end Account

/-! ## The ledger of a run -/

/-- A price with the strategy as it answers there; one that keeps a state may answer in any way. -/
structure LivePrice where
  symbol : String
  price : ℚ
  strategy : Strategy

/-- An engine, the trades it closed and the positions it opened. -/
structure ShadowBook where
  engine : ShadowTradeEngine := {}
  trades : List ShadowTrade := []
  opened : List (String × OpenPosition) := []

namespace ShadowBook

variable (book : ShadowBook)

/-- A position is opened where the direction changes. -/
def observe (live : LivePrice) : ShadowBook :=
  let (closed, after) := book.engine.observe live.strategy live.symbol live.price
  let position := after.positions live.symbol
  { engine := after
    trades := book.trades ++ closed.toList
    opened :=
      if position.direction = (book.engine.positions live.symbol).direction then book.opened
      else book.opened ++ [(live.symbol, position)] }

def observeAll (lives : List LivePrice) : ShadowBook := lives.foldl observe {}

end ShadowBook

def tradesOf (symbol : String) (trades : List ShadowTrade) : List ShadowTrade :=
  trades.filter fun trade => trade.symbol = symbol

def entriesOf (symbol : String) (opened : List (String × OpenPosition)) : List (String × ℚ) :=
  (opened.filter fun opened => opened.1 = symbol).map fun opened =>
    (side opened.2.direction, opened.2.entryPrice)

theorem tradesOf_concat (symbol : String) (trades : List ShadowTrade) (trade : ShadowTrade) :
    tradesOf symbol (trades ++ [trade]) =
      if trade.symbol = symbol then tradesOf symbol trades ++ [trade]
      else tradesOf symbol trades := by
  rw [tradesOf, List.filter_append]
  split_ifs with same
  · rw [List.filter_cons_of_pos (by simp [same]), List.filter_nil, tradesOf]
  · rw [List.filter_cons_of_neg (by simp [same]), List.filter_nil, List.append_nil, tradesOf]

theorem entriesOf_concat (symbol other : String) (opened : List (String × OpenPosition))
    (position : OpenPosition) :
    entriesOf symbol (opened ++ [(other, position)]) =
      if other = symbol then
        entriesOf symbol opened ++ [(side position.direction, position.entryPrice)]
      else entriesOf symbol opened := by
  rw [entriesOf, List.filter_append, List.map_append]
  split_ifs with same
  · rw [List.filter_cons_of_pos (by simp [same])]
    rfl
  · rw [List.filter_cons_of_neg (by simp [same]), List.filter_nil, List.map_nil, List.append_nil,
      entriesOf]

/-- The price difference of a trade, signed by its direction. -/
def ShadowTrade.difference (trade : ShadowTrade) : ℚ :=
  if trade.direction = "long" then trade.exitPrice - trade.entryPrice
  else trade.entryPrice - trade.exitPrice

/-- The accounts of the symbols, and the metrics over all of them. -/
structure ShadowLedger (book : ShadowBook) : Prop where
  account : ∀ symbol,
    Account (book.engine.positions symbol) (tradesOf symbol book.trades)
      (entriesOf symbol book.opened)
  sides : ∀ trade ∈ book.trades, trade.direction = "long" ∨ trade.direction = "short"
  signed : ∀ trade ∈ book.trades, trade.pnl = trade.difference
  pnls : book.engine.metrics.pnls = book.trades.map ShadowTrade.pnl
  trades : book.engine.metrics.trades = book.engine.metrics.pnls.length
  wins : book.engine.metrics.wins = book.engine.metrics.pnls.countP fun pnl => 0 < pnl
  realizedPnl : book.engine.metrics.realizedPnl = book.engine.metrics.pnls.sum

namespace ShadowLedger

variable {book : ShadowBook}

theorem kept (ledger : ShadowLedger book) {after : ShadowTradeEngine}
    (positions : after.positions = book.engine.positions)
    (metrics : after.metrics = book.engine.metrics) :
    ShadowLedger { book with engine := after } where
  account symbol := by
    rw [positions]
    exact ledger.account symbol
  sides := ledger.sides
  signed := ledger.signed
  pnls := by rw [metrics]; exact ledger.pnls
  trades := by rw [metrics]; exact ledger.trades
  wins := by rw [metrics]; exact ledger.wins
  realizedPnl := by rw [metrics]; exact ledger.realizedPnl

theorem opened (ledger : ShadowLedger book) {after : ShadowTradeEngine} {symbol : String}
    {position : OpenPosition} (flat : (book.engine.positions symbol).direction = 0)
    (sided : position.direction = 1 ∨ position.direction = -1)
    (positions : after.positions = Function.update book.engine.positions symbol position)
    (metrics : after.metrics = book.engine.metrics) :
    ShadowLedger { book with engine := after, opened := book.opened ++ [(symbol, position)] } where
  account other := by
    rw [positions, entriesOf_concat]
    split_ifs with same
    · subst same
      rw [Function.update_self]
      exact (ledger.account symbol).opened flat sided
    · rw [Function.update_of_ne (Ne.symm same)]
      exact ledger.account other
  sides := ledger.sides
  signed := ledger.signed
  pnls := by rw [metrics]; exact ledger.pnls
  trades := by rw [metrics]; exact ledger.trades
  wins := by rw [metrics]; exact ledger.wins
  realizedPnl := by rw [metrics]; exact ledger.realizedPnl

theorem flipped (ledger : ShadowLedger book) {after : ShadowTradeEngine} {trade : ShadowTrade}
    {position : OpenPosition} (held : (book.engine.positions trade.symbol).direction ≠ 0)
    (sided : position.direction = 1 ∨ position.direction = -1)
    (other : (book.engine.positions trade.symbol).direction ≠ position.direction)
    (direction : trade.direction = side (book.engine.positions trade.symbol).direction)
    (entered : trade.entryPrice = (book.engine.positions trade.symbol).entryPrice)
    (exited : position.entryPrice = trade.exitPrice)
    (pnl : trade.pnl = trade.difference)
    (positions : after.positions = Function.update book.engine.positions trade.symbol position)
    (metrics : after.metrics = book.engine.metrics.add trade.pnl) :
    ShadowLedger
      { engine := after
        trades := book.trades ++ [trade]
        opened := book.opened ++ [(trade.symbol, position)] } where
  account symbol := by
    rw [positions, tradesOf_concat, entriesOf_concat]
    split_ifs with same
    · subst same
      rw [Function.update_self]
      exact (ledger.account trade.symbol).flipped held sided other direction entered exited
    · rw [Function.update_of_ne (Ne.symm same)]
      exact ledger.account symbol
  sides := by
    refine List.forall_mem_append.mpr ⟨ledger.sides, List.forall_mem_singleton.mpr ?_⟩
    rw [direction, side]
    exact ite_eq_or_eq _ _ _
  signed := List.forall_mem_append.mpr ⟨ledger.signed, List.forall_mem_singleton.mpr pnl⟩
  pnls := by
    rw [metrics, ShadowMetrics.add, ledger.pnls, List.map_append, List.map_singleton]
  trades := by
    rw [metrics, ShadowMetrics.add, ledger.trades, List.length_append, List.length_singleton]
  wins := by
    rw [metrics, ShadowMetrics.add, List.countP_append, List.countP_singleton, ledger.wins]
    by_cases wins : 0 < trade.pnl
    · simp [wins]
    · simp [wins]
  realizedPnl := by
    rw [metrics, ShadowMetrics.add, List.sum_append, List.sum_singleton, ledger.realizedPnl]

theorem observe (ledger : ShadowLedger book) (live : LivePrice) :
    ShadowLedger (book.observe live) := by
  obtain ⟨symbol, price, strategy⟩ := live
  have step := book.engine.observe_observed strategy symbol price
  rw [ShadowBook.observe]
  dsimp only
  generalize book.engine.observe strategy symbol price = outcome at step ⊢
  obtain ⟨closed, after⟩ := outcome
  dsimp only at step ⊢
  cases step with
  | kept _ positions metrics =>
      simp only [positions, if_true, Option.toList_none, List.append_nil]
      exact ledger.kept positions metrics
  | opened _ position flat sided entry positions metrics =>
      have held : position.direction ≠ 0 := by omega
      simp only [positions, Function.update_self, flat, if_neg held, Option.toList_none,
        List.append_nil]
      exact ledger.opened flat sided positions metrics
  | flipped _ position trade held sided other entry ofSymbol direction entered exited pnl positions
      metrics =>
      subst ofSymbol
      simp only [positions, Function.update_self, if_neg (Ne.symm other), Option.toList_some]
      refine ledger.flipped held sided other direction entered (entry.trans exited.symm) ?_
        positions metrics
      have long : trade.direction = "long" ↔
          (book.engine.positions trade.symbol).direction = 1 := by
        rw [direction]
        exact side_eq_long_iff _
      rw [pnl, ShadowTrade.difference]
      simp only [long]

theorem observeAll (lives : List LivePrice) : ShadowLedger (ShadowBook.observeAll lives) := by
  have fold : ∀ book, ShadowLedger book → ShadowLedger (lives.foldl ShadowBook.observe book) := by
    induction lives with
    | nil => exact fun book ledger => ledger
    | cons live lives induction => exact fun book ledger => induction _ (ledger.observe live)
  refine fold {} ?_
  exact {
    account := fun _ => Account.empty
    sides := fun _ listed => nomatch listed
    signed := fun _ listed => nomatch listed
    pnls := rfl
    trades := rfl
    wins := rfl
    realizedPnl := rfl }

end ShadowLedger

theorem sum_one_symbol {symbols : List String} (distinct : symbols.Nodup) {symbol : String}
    (listed : symbol ∈ symbols) (amount : ℚ) :
    (symbols.map fun other => if symbol = other then amount else 0).sum = amount := by
  induction symbols with
  | nil => cases listed
  | cons first symbols induction =>
      obtain ⟨fresh, distinct⟩ := List.nodup_cons.mp distinct
      rw [List.map_cons, List.sum_cons]
      by_cases same : symbol = first
      · subst same
        have others : symbols.map (fun other => if symbol = other then amount else 0) =
            symbols.map fun _ => 0 := by
          refine List.map_congr_left fun other later => if_neg ?_
          rintro rfl
          exact fresh later
        rw [if_pos rfl, others, List.map_const', List.sum_replicate, nsmul_zero, add_zero]
      · rw [if_neg same, zero_add, induction distinct (List.mem_of_ne_of_mem same listed)]

theorem sum_by_symbol {symbols : List String} (distinct : symbols.Nodup) {trades : List ShadowTrade}
    (listed : ∀ trade ∈ trades, trade.symbol ∈ symbols) :
    (trades.map ShadowTrade.difference).sum =
      (symbols.map fun symbol =>
        ((tradesOf symbol trades).map ShadowTrade.difference).sum).sum := by
  induction trades with
  | nil => simp [tradesOf]
  | cons trade trades induction =>
      obtain ⟨here, later⟩ := List.forall_mem_cons.mp listed
      have split : ∀ symbol,
          ((tradesOf symbol (trade :: trades)).map ShadowTrade.difference).sum =
            (if trade.symbol = symbol then trade.difference else 0) +
              ((tradesOf symbol trades).map ShadowTrade.difference).sum := by
        intro symbol
        rw [tradesOf, List.filter_cons]
        by_cases same : trade.symbol = symbol
        · simp [same, tradesOf]
        · simp [same, tradesOf]
      simp only [split, List.sum_map_add]
      rw [List.map_cons, List.sum_cons, induction later, sum_one_symbol distinct here]

/-- Whatever prices come in and whatever the strategy answers, the closed trades are a ledger. -/
theorem shadow_ledger (lives : List LivePrice) :
    let book := ShadowBook.observeAll lives
    let metrics := book.engine.metrics
    (∀ symbol, (tradesOf symbol book.trades).IsChain ShadowTrade.FollowedBy ∧
      entriesOf symbol book.opened =
        (tradesOf symbol book.trades).map (fun trade => (trade.direction, trade.entryPrice)) ++
          (book.engine.positions symbol).entries) ∧
    (∀ trade ∈ book.trades, trade.direction = "long" ∨ trade.direction = "short") ∧
    metrics.pnls = book.trades.map ShadowTrade.pnl ∧
    metrics.trades = metrics.pnls.length ∧
    metrics.wins = metrics.pnls.countP (fun pnl => 0 < pnl) ∧
    metrics.realizedPnl = metrics.pnls.sum ∧
    ∀ symbols : List String, symbols.Nodup → (∀ trade ∈ book.trades, trade.symbol ∈ symbols) →
      metrics.realizedPnl = (symbols.map fun symbol =>
        ((tradesOf symbol book.trades).map ShadowTrade.difference).sum).sum := by
  intro book metrics
  have ledger := ShadowLedger.observeAll lives
  refine ⟨fun symbol => ⟨(ledger.account symbol).alternate, (ledger.account symbol).entered⟩,
    ledger.sides, ledger.pnls, ledger.trades, ledger.wins, ledger.realizedPnl, ?_⟩
  intro symbols distinct listed
  have signed : book.trades.map ShadowTrade.pnl = book.trades.map ShadowTrade.difference :=
    List.map_congr_left ledger.signed
  rw [← sum_by_symbol distinct listed, ← signed, ← ledger.pnls]
  exact ledger.realizedPnl

end TradingControl.Challenger
