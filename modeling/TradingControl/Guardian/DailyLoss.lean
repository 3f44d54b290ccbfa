import Mathlib.Data.List.Induction
import TradingControl.Python.Reference
import TradingControl.Python.Window
import TradingControl.RegimeRisk

/-!
# The daily loss in memory mode

Without Postgres the guardian adds up the closes of the day that it finds in the mirror of closed
trades, a Redis list that keeps the most recent hundred.
-/

namespace TradingControl
namespace DailyLoss

open Python

-- the window lemmas say all there is to know, and a hundred is too far to unfold
attribute [local irreducible] lastItems

/-! ## The mirror -/

/-- `REDIS_CLOSED_TRADES_MAX`. -/
def closedTradesMax : ℕ := 100

/-- The closed trade that the engine records for a round trip. -/
structure ClosedTrade where
  symbol : String
  side : String
  qty : ℚ
  entryPrice : ℚ
  exitPrice : ℚ
  pnl : ℚ
  pnlPercent : ℚ
  filledAt : String

def ClosedTrade.payload (trade : ClosedTrade) : Dict String Value :=
  [("symbol", .str trade.symbol), ("side", .str trade.side), ("qty", .float trade.qty),
    ("entry_price", .float trade.entryPrice), ("exit_price", .float trade.exitPrice),
    ("pnl", .float trade.pnl), ("pnl_percent", .float trade.pnlPercent),
    ("filled_at", .str trade.filledAt)]

/-- `push_closed_trade`: `LPUSH` and `LTRIM` of the entry, which is kept decoded here. -/
def pushClosedTrade (now : String) (payload : Dict String Value)
    (mirror : List (Dict String Value)) : List (Dict String Value) :=
  let entry :=
    if ((Value.get payload "timestamp").getD .none).truthy then payload
    else Dict.set "timestamp" (.str now) payload
  (entry :: mirror).take closedTradesMax

/-- `list_closed_trades`, newest first. -/
def listClosedTrades (limit : ℕ) (mirror : List (Dict String Value)) : List (Dict String Value) :=
  mirror.take (max 1 (min limit closedTradesMax))

/-! ## The guardian -/

section

variable (runtime : Runtime) (utcDate : Value → Option ℤ)

/-- One trade of the loop of `_today_realized_pnl`; `utcDate` is `_parse_utc_date`. -/
def addTrade (today : ℤ) (total : ℚ) (trade : Dict String Value) : Except Raised ℚ :=
  let closedAt :=
    utcDate (Value.orElse (Value.get trade "filled_at")
      ((Value.get trade "timestamp").getD .none))
  if closedAt ≠ some today then .ok total
  else
    match runtime.toFloat (Value.orElse (Value.get trade "pnl") (.float 0)) with
    | .ok pnl => .ok (total + pnl)
    | .error .typeError => .ok total
    | .error .valueError => .ok total
    | .error raised => .error raised

/-- `_today_realized_pnl` in memory mode. -/
def todayRealizedPnl (today : ℤ) (mirror : List (Dict String Value)) : Except Raised ℚ :=
  (listClosedTrades closedTradesMax mirror).foldlM (addTrade runtime utcDate today) 0

end

/-- The payload of the alert that comes with the kill switch. -/
structure DailyLossAlert where
  dailyPnl : ℚ
  threshold : ℚ

/-- `loss_threshold`. -/
def lossThreshold (regime : Option Value) : ℚ :=
  -(defaultPaperCash * RegimeRisk.dailyLossLimit regime)

/-- `_check_daily_loss`: the kill switch is set exactly where an alert is sent. -/
def checkDailyLoss (regime : Option Value) (dailyPnl : ℚ) : Option DailyLossAlert :=
  if dailyPnl < lossThreshold regime then
    some { dailyPnl := dailyPnl, threshold := lossThreshold regime }
  else none

/-! ## A day of closes -/

/-- A close with the time of its push. -/
structure Pushed where
  trade : ClosedTrade
  now : String

/-- The mirror after closes, the oldest first. -/
def mirrorOf (history : List Pushed) : List (Dict String Value) :=
  history.foldl (fun mirror pushed => pushClosedTrade pushed.now pushed.trade.payload mirror) []

/-- The text that dates a close. -/
def Pushed.closedAt (pushed : Pushed) : String :=
  if pushed.trade.filledAt = "" then pushed.now else pushed.trade.filledAt

section

variable (utcDate : Value → Option ℤ) (today : ℤ)

/-- Realized PnL of the closes of a day. -/
def dayPnl (history : List Pushed) : ℚ :=
  ((history.filter fun pushed => utcDate (.str pushed.closedAt) = some today).map
    (·.trade.pnl)).sum

/-- Closes that the mirror has dropped. -/
def dropped (history : List Pushed) : List Pushed := history.take (history.length - closedTradesMax)

variable {utcDate today}

theorem dayPnl_append (first second : List Pushed) :
    dayPnl utcDate today (first ++ second) =
      dayPnl utcDate today first + dayPnl utcDate today second := by
  simp [dayPnl]

theorem dayPnl_reverse (history : List Pushed) :
    dayPnl utcDate today history.reverse = dayPnl utcDate today history := by
  rw [dayPnl, dayPnl, List.filter_reverse, List.map_reverse, List.sum_reverse]

theorem dropped_append_lastItems (history : List Pushed) :
    dropped history ++ lastItems closedTradesMax history = history := by
  rw [dropped, lastItems]
  exact List.take_append_drop _ _

/-- The entry of a close. -/
def Pushed.entry (pushed : Pushed) : Dict String Value :=
  Dict.set "timestamp" (.str pushed.now) pushed.trade.payload

/-- The mirror holds the most recent closes, newest first. -/
theorem mirrorOf_eq (history : List Pushed) :
    mirrorOf history = ((lastItems closedTradesMax history).map Pushed.entry).reverse := by
  induction history using List.reverseRecOn with
  | nil => simp [mirrorOf, lastItems_nil]
  | append_singleton history pushed induction =>
      have step : mirrorOf (history ++ [pushed]) =
          (pushed.entry :: mirrorOf history).take closedTradesMax := by
        rw [mirrorOf, List.foldl_concat]
        rfl
      rw [step, induction, ← lastItems_append_singleton]
      generalize lastItems closedTradesMax history = kept
      rw [← lastItems_map, List.map_append, List.map_singleton, lastItems, ← List.take_reverse,
        List.reverse_append]
      rfl

theorem addTrade_entry {runtime : Runtime} (total : ℚ) (pushed : Pushed) :
    addTrade runtime utcDate today total pushed.entry =
      .ok (total +
        if utcDate (.str pushed.closedAt) = some today then pushed.trade.pnl else 0) := by
  have dated : Value.orElse (Value.get pushed.entry "filled_at")
      ((Value.get pushed.entry "timestamp").getD .none) = .str pushed.closedAt := by
    show Value.orElse (some (.str pushed.trade.filledAt)) (.str pushed.now) = _
    by_cases undated : pushed.trade.filledAt = ""
    · simp [Value.orElse, Value.truthy, Pushed.closedAt, undated]
    · simp [Value.orElse, Value.truthy, Pushed.closedAt, undated]
  have read : Value.orElse (Value.get pushed.entry "pnl") (.float 0) =
      .float pushed.trade.pnl := by
    show Value.orElse (some (.float pushed.trade.pnl)) (.float 0) = _
    by_cases even : pushed.trade.pnl = 0
    · simp [Value.orElse, Value.truthy, even]
    · simp [Value.orElse, Value.truthy, even]
  rw [addTrade, dated, read]
  by_cases now : utcDate (.str pushed.closedAt) = some today
  · simp [now, Runtime.toFloat]
  · simp [now]

theorem foldlM_addTrade {runtime : Runtime} (pushes : List Pushed) (total : ℚ) :
    (pushes.map Pushed.entry).foldlM (addTrade runtime utcDate today) total =
      .ok (total + dayPnl utcDate today pushes) := by
  induction pushes generalizing total with
  | nil => simp [dayPnl, pure, Except.pure]
  | cons pushed rest induction =>
      rw [List.map_cons, List.foldlM_cons, addTrade_entry]
      show (rest.map Pushed.entry).foldlM (addTrade runtime utcDate today) _ = _
      rw [induction, Except.ok.injEq, add_assoc]
      congr 1
      by_cases now : utcDate (.str pushed.closedAt) = some today
      · simp [dayPnl, now]
      · simp [dayPnl, now]

/-- The guardian adds up the closes of the day that the mirror has kept. -/
theorem todayRealizedPnl_eq (runtime : Runtime) (history : List Pushed) :
    todayRealizedPnl runtime utcDate today (mirrorOf history) =
      .ok (dayPnl utcDate today (lastItems closedTradesMax history)) := by
  have whole : listClosedTrades closedTradesMax (mirrorOf history) = mirrorOf history := by
    rw [listClosedTrades, Nat.min_self, Nat.max_eq_right (by decide), mirrorOf_eq]
    apply List.take_of_length_le
    rw [List.length_reverse, List.length_map]
    rw [lastItems, List.length_drop]
    omega
  rw [todayRealizedPnl, whole, mirrorOf_eq, ← List.map_reverse, foldlM_addTrade, dayPnl_reverse,
    zero_add]

end

/-! ## Over-tripping -/

/-- The guardian finds no less than the day's realized PnL where that is a loss, and trips only
where the day's loss exceeds the limit. -/
def NeverOverTrips (runtime : Runtime) (utcDate : Value → Option ℤ) (today : ℤ)
    (regime : Option Value) (history : List Pushed) : Prop :=
  ∃ value, todayRealizedPnl runtime utcDate today (mirrorOf history) = .ok value ∧
    (dayPnl utcDate today history < 0 → dayPnl utcDate today history ≤ value) ∧
      ((checkDailyLoss regime value).isSome →
        dayPnl utcDate today history < lossThreshold regime)

/-- The closes of the day that the mirror has dropped add up to no gain, or to no more than is left
of it above the limit on a day without a loss. -/
def DroppedWithoutGain (utcDate : Value → Option ℤ) (today : ℤ) (regime : Option Value)
    (history : List Pushed) : Prop :=
  dayPnl utcDate today (dropped history) ≤ 0 ∨
    0 ≤ dayPnl utcDate today history ∧
      dayPnl utcDate today (dropped history) ≤
        dayPnl utcDate today history - lossThreshold regime

theorem lossThreshold_neg (regime : Option Value) : lossThreshold regime < 0 := by
  rw [lossThreshold, RegimeRisk.dailyLossLimit]
  split_ifs <;> norm_num [defaultPaperCash, riskOffDailyLossLimitPct, dailyLossLimitPct]

/-- The kill switch never over-trips exactly where the mirror has dropped no gain that the day
needs. -/
theorem neverOverTrips_iff (runtime : Runtime) (utcDate : Value → Option ℤ) (today : ℤ)
    (regime : Option Value) (history : List Pushed) :
    NeverOverTrips runtime utcDate today regime history ↔
      DroppedWithoutGain utcDate today regime history := by
  have total := @dayPnl_append utcDate today (dropped history) (lastItems closedTradesMax history)
  rw [dropped_append_lastItems] at total
  have negative := lossThreshold_neg regime
  have trips (value : ℚ) :
      (checkDailyLoss regime value).isSome ↔ value < lossThreshold regime := by
    rw [checkDailyLoss]
    split_ifs with below
    · exact iff_of_true rfl below
    · exact iff_of_false Bool.false_ne_true below
  constructor
  · rintro ⟨value, returned, floor, justified⟩
    rw [todayRealizedPnl_eq, Except.ok.injEq] at returned
    subst returned
    rw [trips] at justified
    by_cases harmless : dayPnl utcDate today (dropped history) ≤ 0
    · exact .inl harmless
    · have day : 0 ≤ dayPnl utcDate today history := by
        by_contra loss
        have kept := floor (not_le.mp loss)
        linarith
      have inside : lossThreshold regime ≤
          dayPnl utcDate today (lastItems closedTradesMax history) := by
        by_contra below
        have exceeded := justified (not_le.mp below)
        linarith
      exact .inr ⟨day, by linarith⟩
  · intro harmless
    refine ⟨_, todayRealizedPnl_eq runtime history, fun loss => ?_, fun tripped => ?_⟩
    · rcases harmless with noGain | ⟨day, -⟩
      · linarith
      · exact absurd loss (not_lt.mpr day)
    · rw [trips] at tripped
      rcases harmless with noGain | ⟨-, left⟩
      · linarith
      · linarith

/-- A close of the day at this PnL. -/
def closeToday (pnl : ℚ) : Pushed where
  trade :=
    { symbol := "BTC/USD"
      side := "sell"
      qty := 1
      entryPrice := 100
      exitPrice := 100 + pnl
      pnl := pnl
      pnlPercent := pnl
      filledAt := "2026-01-02T12:00:00+00:00" }
  now := "2026-01-02T12:00:00+00:00"

/-- A gain of 5000 and then a hundred losses of 30: the day is up by 2000, and the kill switch is
set for a loss of 3000. -/
theorem gain_dropped :
    ¬∀ (runtime : Runtime) (utcDate : Value → Option ℤ) (today : ℤ) (regime : Option Value)
      (history : List Pushed), NeverOverTrips runtime utcDate today regime history := by
  intro always
  obtain ⟨value, returned, -, justified⟩ := always Reference.runtime (fun _ => some 0) 0 none
    (closeToday 5000 :: List.replicate 100 (closeToday (-30)))
  have total : dayPnl (fun _ => some 0) 0
      (closeToday 5000 :: List.replicate 100 (closeToday (-30))) = 2000 := by decide +kernel
  have sum : todayRealizedPnl Reference.runtime (fun _ => some 0) 0
      (mirrorOf (closeToday 5000 :: List.replicate 100 (closeToday (-30)))) = .ok (-3000) := by
    rw [todayRealizedPnl_eq, Except.ok.injEq]
    decide +kernel
  rw [sum, Except.ok.injEq] at returned
  subst returned
  have tripped := justified (by decide +kernel)
  rw [total] at tripped
  revert tripped
  decide +kernel

end DailyLoss
end TradingControl
