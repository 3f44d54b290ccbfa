import Mathlib.Data.List.ReduceOption
import TradingControl.Dashboard.InMemoryStore
import TradingControl.Python.Reference
import TradingControl.Python.Window

/-!
# Surfaces that show realized PnL

The paired view and the equity curve add up the last hundred orders, the snapshot and the
closed-trade statistics all five hundred that the store keeps.  They agree as long as no order that
the window has left behind realized anything.
-/

namespace TradingControl.Dashboard

open Python

-- the window lemmas say all there is to know, and five hundred is too far to unfold
attribute [local irreducible] lastItems

/-! ## Rows of recorded fills -/

/-- Realized PnL of a fill; an opening fill counts as nothing. -/
def RecordedFill.pnl (fill : RecordedFill) : ℚ := fill.ctx.pnlValue.getD 0

variable {interpreter : Interpreter}

theorem pnlOrZero_orderRow (fill : RecordedFill) :
    pnlOrZero interpreter fill.orderRow = .ok (.finite fill.pnl) := by
  cases realized : fill.ctx.pnlValue with
  | none =>
      have row : fill.orderRow.lookup "pnl" = some .none := by
        simp [RecordedFill.orderRow, List.lookup_cons, realized]
      simp [pnlOrZero, row, safeFloat, Interpreter.float, RecordedFill.pnl, realized, bind,
        Except.bind, pure, Except.pure]
  | some pnl =>
      have row : fill.orderRow.lookup "pnl" = some (.float pnl) := by
        simp [RecordedFill.orderRow, List.lookup_cons, realized]
      simp [pnlOrZero, row, safeFloat, Interpreter.float, RecordedFill.pnl, realized, bind,
        Except.bind, pure, Except.pure]

theorem realizedPnlOf_orderRow (fill : RecordedFill) :
    realizedPnlOf interpreter fill.orderRow = .ok (fill.ctx.pnlValue.map .finite) := by
  cases realized : fill.ctx.pnlValue with
  | none =>
      have row : fill.orderRow.lookup "pnl" = some .none := by
        simp [RecordedFill.orderRow, List.lookup_cons, realized]
      simp [realizedPnlOf, row]
  | some pnl =>
      have row : fill.orderRow.lookup "pnl" = some (.float pnl) := by
        simp [RecordedFill.orderRow, List.lookup_cons, realized]
      simp [realizedPnlOf, row, safeFloat, Interpreter.float]

/-- Parsing one row after another, where none raises. -/
theorem mapM_orderRow {β : Type} {parse : Dict String Value → Except Raised β}
    {read : RecordedFill → β} (reads : ∀ fill : RecordedFill, parse fill.orderRow = .ok (read fill))
    (fills : List RecordedFill) :
    (fills.map (·.orderRow)).mapM parse = .ok (fills.map read) := by
  induction fills with
  | nil => rfl
  | cons fill rest induction =>
      rw [List.map_cons, List.mapM_cons, reads, induction]
      rfl

theorem sum_finite (values : List ℚ) : sum (values.map .finite) = .finite values.sum := by
  have accumulated : ∀ (start : ℚ),
      (values.map Number.finite).foldl Number.add (.finite start) =
        .finite (start + values.sum) := by
    induction values with
    | nil => simp
    | cons value rest induction =>
        intro start
        rw [List.map_cons, List.foldl_cons, Number.add, induction, List.sum_cons, add_assoc]
  rw [sum, accumulated, zero_add]

theorem winning_finite (values : List ℚ) :
    winning (values.map .finite) = values.countP (0 < ·) := by
  rw [winning, List.countP_map]
  rfl

theorem losing_finite (values : List ℚ) :
    losing (values.map .finite) = values.countP (· < 0) := by
  rw [losing, List.countP_map]
  rfl

/-- Opening fills add nothing to a sum or a count. -/
theorem reduceOption_pnl (fills : List RecordedFill) :
    (fills.map (·.ctx.pnlValue)).reduceOption.sum = (fills.map (·.pnl)).sum ∧
      (fills.map (·.ctx.pnlValue)).reduceOption.countP (0 < ·) =
        (fills.map (·.pnl)).countP (0 < ·) ∧
      (fills.map (·.ctx.pnlValue)).reduceOption.countP (· < 0) =
        (fills.map (·.pnl)).countP (· < 0) := by
  induction fills with
  | nil => exact ⟨rfl, rfl, rfl⟩
  | cons fill rest induction =>
      obtain ⟨total, wins, losses⟩ := induction
      cases realized : fill.ctx.pnlValue with
      | none =>
          have nothing : fill.pnl = 0 := by simp [RecordedFill.pnl, realized]
          simp only [List.map_cons, realized, nothing, List.reduceOption_cons_of_none,
            List.sum_cons, List.countP_cons, total, wins, losses, zero_add, lt_irrefl]
          simp
      | some pnl =>
          have counted : fill.pnl = pnl := by simp [RecordedFill.pnl, realized]
          simp only [List.map_cons, realized, counted, List.reduceOption_cons_of_some,
            List.sum_cons, List.countP_cons, total, wins, losses, and_self]

/-! ## What each surface shows -/

/-- Realized PnL of fills. -/
def realized (fills : List RecordedFill) : ℚ := (fills.map (·.pnl)).sum

def winRate (fills : List RecordedFill) : ℚ :=
  winRateFromCounts ((fills.map (·.pnl)).countP (0 < ·)) ((fills.map (·.pnl)).countP (· < 0))

theorem closedTradeStats_orderRow (fills : List RecordedFill) :
    ∃ stats, closedTradeStats interpreter (fills.map (·.orderRow)) = .ok stats ∧
      stats.realizedPnl = .finite (roundHalfEven 8 (realized fills)) ∧
      stats.winRate = winRate fills := by
  obtain ⟨total, wins, losses⟩ := reduceOption_pnl fills
  rw [closedTradeStats, mapM_orderRow realizedPnlOf_orderRow]
  have numbers : (fills.map fun fill => fill.ctx.pnlValue.map Number.finite).reduceOption =
      (fills.map (·.ctx.pnlValue)).reduceOption.map .finite := by
    rw [← List.reduceOption_map, List.map_map]
    rfl
  refine ⟨_, rfl, ?_, ?_⟩
  · dsimp only
    rw [numbers, sum_finite, total]
    rfl
  · dsimp only
    rw [numbers, winning_finite, losing_finite, wins, losses]
    rfl

theorem pairedPnlPayload_orderRow {store : InMemoryStore} {fills : List RecordedFill}
    (orders : store.orders = fills.map (·.orderRow)) :
    ∃ paired, store.pairedPnlPayload interpreter = .ok paired ∧
      paired.realizedPnl = .finite (roundHalfEven 8 (realized (lastItems 100 fills))) ∧
      paired.winRatePercent = roundHalfEven 2 (winRate (lastItems 100 fills) * 100) := by
  have numbers : (lastItems 100 fills).map (fun fill => Number.finite fill.pnl) =
      ((lastItems 100 fills).map (·.pnl)).map .finite := by
    rw [List.map_map]
    rfl
  rw [InMemoryStore.pairedPnlPayload, orders, lastItems_map, mapM_orderRow pnlOrZero_orderRow,
    numbers]
  refine ⟨_, rfl, ?_, ?_⟩
  · dsimp only
    rw [sum_finite]
    rfl
  · dsimp only
    rw [winning_finite, losing_finite]
    rfl

/-! ## Runs -/

/-- The realized PnL of the last point of the equity curve is the paired view's. -/
def CurveShows (store : InMemoryStore) (realizedPnl : Number) : Prop :=
  ∀ point, store.equityCurve.getLast? = some point → point.realizedPnl = realizedPnl

theorem orders_mirrorBrokerPosition (store : InMemoryStore) (symbol : String) (position : Position)
    (strategyId : Option String) :
    (store.mirrorBrokerPosition symbol position strategyId).orders = store.orders := by
  rw [InMemoryStore.mirrorBrokerPosition]
  split_ifs <;> rfl

theorem orders_addOrder (store : InMemoryStore) (order : Dict String Value) :
    (store.addOrder order).orders = lastItems 500 (store.orders ++ [order]) := rfl

/-- Recording a fill appends its row and a point with the paired view's PnL. -/
theorem recordFill_ok {store : InMemoryStore} {fills : List RecordedFill} (fill : RecordedFill)
    (orders : store.orders = (lastItems 500 fills).map (·.orderRow)) :
    ∃ after, store.recordFill interpreter fill = .ok after ∧
      after.orders = (lastItems 500 (fills ++ [fill])).map (·.orderRow) ∧
      CurveShows after
        (.finite (roundHalfEven 8 (realized (lastItems 100 (fills ++ [fill]))))) := by
  have recorded : ((store.addOrder fill.orderRow).mirrorBrokerPosition fill.ctx.symbol
      fill.brokerPosition (some fill.ctx.strategyId)).orders =
        (lastItems 500 (fills ++ [fill])).map (·.orderRow) := by
    have appended := @lastItems_append_singleton _ 500 fills fill
    rw [orders_mirrorBrokerPosition, orders_addOrder, ← appended, ← lastItems_map, List.map_append,
      ← orders, List.map_singleton]
  obtain ⟨paired, view, shown, -⟩ := @pairedPnlPayload_orderRow interpreter _ _ recorded
  have window := @lastItems_lastItems _ 100 500 (by omega) (fills ++ [fill])
  rw [window] at shown
  simp only [InMemoryStore.recordFill, InMemoryStore.appendEquitySnapshot, view, bind, Except.bind,
    pure, Except.pure, Except.ok.injEq, exists_eq_left']
  refine ⟨recorded, ?_⟩
  intro point last
  rw [getLast?_lastItems_append (by omega)] at last
  cases last
  exact shown

/-- Recording never raises, and keeps the last five hundred rows. -/
theorem recordFills_ok (fills : List RecordedFill) :
    ∃ store, InMemoryStore.recordFills interpreter fills = .ok store ∧
      store.orders = (lastItems 500 fills).map (·.orderRow) ∧
      CurveShows store (.finite (roundHalfEven 8 (realized (lastItems 100 fills)))) := by
  induction fills using List.reverseRecOn with
  | nil => exact ⟨{}, rfl, by rw [lastItems_nil]; rfl, fun point last => by cases last⟩
  | append_singleton fills fill induction =>
      obtain ⟨store, ran, orders, -⟩ := induction
      obtain ⟨after, recorded, kept⟩ := @recordFill_ok interpreter _ _ fill orders
      refine ⟨after, ?_, kept⟩
      rw [InMemoryStore.recordFills] at ran ⊢
      rw [List.foldlM_append, ran]
      simp only [bind, Except.bind, List.foldlM_cons, List.foldlM_nil, recorded, pure, Except.pure]

/-- The surfaces show the same realized PnL, to the cent where they show cents, and the same win
rate. -/
structure SurfacesAgree (interpreter : Interpreter) (store : InMemoryStore) : Prop where
  realizedPnl : ∃ paired snapshot, store.pairedPnlPayload interpreter = .ok paired ∧
    store.dashboardFallbackSnapshot interpreter = .ok snapshot ∧
    snapshot.dailyPnl = paired.realizedPnl.round 2 ∧ CurveShows store paired.realizedPnl
  winRate : ∃ paired stats, store.pairedPnlPayload interpreter = .ok paired ∧
    closedTradeStats interpreter store.orders = .ok stats ∧
    paired.winRatePercent = roundHalfEven 2 (stats.winRate * 100)

/-- Fills without realized PnL count neither in sums nor in win rates. -/
theorem realized_append_silent {older recent : List RecordedFill}
    (silent : ∀ fill ∈ older, fill.pnl = 0) :
    realized (older ++ recent) = realized recent ∧ winRate (older ++ recent) = winRate recent := by
  have zeros : older.map (·.pnl) = List.replicate older.length 0 := by
    rw [List.eq_replicate_iff]
    simpa using silent
  simp [realized, winRate, zeros, List.countP_replicate]

/-- In every state of a run whose older fills realized nothing, the surfaces agree. -/
theorem surfaces_agree (interpreter : Interpreter) (fills seen later : List RecordedFill)
    {store : InMemoryStore} (run : fills = seen ++ later)
    (silent : ∀ fill ∈ fills.take (fills.length - 100), fill.pnl = 0)
    (reached : InMemoryStore.recordFills interpreter seen = .ok store) :
    SurfacesAgree interpreter store := by
  obtain ⟨same, ran, orders, curve⟩ := @recordFills_ok interpreter seen
  obtain rfl : store = same := Except.ok.inj (reached.symm.trans ran)
  obtain ⟨older, split, before⟩ := @lastItems_split _ 100 500 (by omega) seen
  have quiet : ∀ fill ∈ older, fill.pnl = 0 := by
    intro fill member
    apply silent
    rw [run, List.length_append]
    have early := before fill member
    rw [List.take_append]
    exact List.mem_append_left _ ((List.take_sublist_take_left (by omega)).subset early)
  obtain ⟨total, rate⟩ := @realized_append_silent older (lastItems 100 seen) quiet
  obtain ⟨paired, view, shown, percent⟩ := @pairedPnlPayload_orderRow interpreter _ _ orders
  obtain ⟨stats, computed, sums, wins⟩ :=
    @closedTradeStats_orderRow interpreter (lastItems 500 seen)
  have window := @lastItems_lastItems _ 100 500 (by omega) seen
  rw [window] at shown percent
  rw [split, total] at sums
  rw [split, rate] at wins
  rw [← orders] at computed
  have cash : defaultPaperCash ≠ 0 := by norm_num [defaultPaperCash]
  obtain ⟨snapshot, taken, daily⟩ : ∃ snapshot,
      store.dashboardFallbackSnapshot interpreter = .ok snapshot ∧
        snapshot.dailyPnl = stats.realizedPnl.round 2 := by
    simp only [InMemoryStore.dashboardFallbackSnapshot, computed, sums, Number.div, cash, if_false,
      bind, Except.bind, pure, Except.pure]
    exact ⟨_, rfl, rfl⟩
  refine ⟨⟨paired, snapshot, view, taken, ?_, ?_⟩, ⟨paired, stats, view, computed, ?_⟩⟩
  · rw [daily, sums, shown]
  · rw [shown]
    exact curve
  · rw [percent, wins]

/-! ## A profit that the window leaves behind -/

/-- A fill of one share that realized this much. -/
def shareFill (pnlValue : Option ℚ) : RecordedFill where
  ctx :=
    { orderId := "order", strategyId := "momentum", symbol := "AAPL", side := "sell", qty := 1
      price := 100, fillPrice := 100, entryPrice := 90, signalConfidence := 1, pnlValue
      pnlPercent := 0, realizedPnl := pnlValue.getD 0, isRoundTripClose := pnlValue.isSome
      idempotencyKey := "key", traceId := "trace", vwapPlan := none, filledAt := "2026-01-01"
      modelUsed := "", primaryEdge := "", decisionCostUsd := 0 }
  brokerOrderId := "broker"
  createdAt := 0
  brokerPosition := flatPosition

/-- A profit of ten and a loss of four, well inside the window. -/
theorem surfaces_agree_short :
    ∃ store, InMemoryStore.recordFills Reference.decimalInterpreter
        [shareFill (some 10), shareFill (some (-4))] = .ok store ∧
      SurfacesAgree Reference.decimalInterpreter store := by
  obtain ⟨store, ran, -⟩ := @recordFills_ok Reference.decimalInterpreter
    [shareFill (some 10), shareFill (some (-4))]
  exact ⟨store, ran, surfaces_agree Reference.decimalInterpreter _ _ [] (List.append_nil _).symm
    (by simp) ran⟩

/-- After a hundred opening fills the paired view has forgotten a profit of ten. -/
theorem old_profit_forgotten :
    ∃ store, InMemoryStore.recordFills Reference.decimalInterpreter
        (shareFill (some 10) :: List.replicate 100 (shareFill none)) = .ok store ∧
      (store.pairedPnlPayload Reference.decimalInterpreter).toOption.map (·.realizedPnl) =
        some (.finite 0) ∧
      (store.dashboardFallbackSnapshot Reference.decimalInterpreter).toOption.map (·.dailyPnl) =
        some (.finite 10) ∧
      ¬SurfacesAgree Reference.decimalInterpreter store := by
  obtain ⟨store, ran, -⟩ := @recordFills_ok Reference.decimalInterpreter
    (shareFill (some 10) :: List.replicate 100 (shareFill none))
  have views : (InMemoryStore.recordFills Reference.decimalInterpreter
      (shareFill (some 10) :: List.replicate 100 (shareFill none))).toOption.map (fun store =>
        ((store.pairedPnlPayload Reference.decimalInterpreter).toOption.map (·.realizedPnl),
          (store.dashboardFallbackSnapshot Reference.decimalInterpreter).toOption.map
            (·.dailyPnl))) = some (some (.finite 0), some (.finite 10)) := by
    decide +kernel
  rw [ran] at views
  simp only [Except.toOption, Option.map_some, Option.some.injEq, Prod.mk.injEq] at views
  obtain ⟨realizedShown, dailyShown⟩ := views
  refine ⟨store, ran, realizedShown, dailyShown, fun agree => ?_⟩
  obtain ⟨paired, snapshot, view, taken, same, -⟩ := agree.realizedPnl
  simp only [view, Option.map_some, Option.some.injEq] at realizedShown
  simp only [taken, Option.map_some, Option.some.injEq] at dailyShown
  rw [realizedShown, dailyShown] at same
  exact absurd same (by decide +kernel)

end TradingControl.Dashboard
