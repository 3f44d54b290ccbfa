import TradingControl.Learning.GradeAgent

/-!
# Opening fills

A fill that opens a position has no realized PnL.  The learning agents take it for a profit of zero,
so what they compute is the same without it only while none of its events is in a window.
-/

namespace TradingControl.Learning

open Python

attribute [local irreducible] lastItems

/-! ## Windows -/

/-- The events that are left when all events of opening fills are removed. -/
def withoutOpenings {α : Type} (delivery : α → Delivery) (events : List α) : List α :=
  events.filter fun event => (delivery event).fill.closes

/-- No event is of an opening fill. -/
def NoOpening {α : Type} (delivery : α → Delivery) (events : List α) : Prop :=
  ∀ event ∈ events, (delivery event).fill.closes = true

/-- How many of the events `buffer[-lookback:]` shows, if there are as many. -/
def windowSize (lookback : ℕ) : ℕ :=
  if lookback = 0 then bufferMaxlen else min lookback bufferMaxlen

theorem recent_lastItems {α : Type} (lookback : ℕ) (items : List α) :
    recent lookback (lastItems bufferMaxlen items) = lastItems (windowSize lookback) items := by
  rw [recent, windowSize]
  split
  · rfl
  · rcases Nat.le_total lookback bufferMaxlen with within | beyond
    · rw [lastItems_lastItems within, min_eq_left within]
    · have few : (lastItems bufferMaxlen items).length ≤ lookback := by
        rw [lastItems, List.length_drop]
        omega
      rw [lastItems_of_length_le few, min_eq_right beyond]

theorem lastItems_withoutOpenings {α : Type} {delivery : α → Delivery} {count : ℕ}
    {events : List α} (cleared : NoOpening delivery (lastItems count events)) :
    lastItems count (withoutOpenings delivery events) = lastItems count events :=
  lastItems_filter cleared

theorem executed_withoutOpenings (deliveries : List Delivery) :
    executed (withoutOpenings id deliveries) = withoutOpenings id (executed deliveries) := by
  rw [executed, withoutOpenings, withoutOpenings, executed, List.filter_comm]

namespace GradeAgent

theorem recent_pnlBuffer (lookback : ℕ) (deliveries : List Delivery) :
    recent lookback (after deliveries).pnlBuffer =
      (lastItems (windowSize lookback) (graded id [] deliveries)).map Delivery.pnlSample := by
  rw [pnlBuffer_after, recent_lastItems, lastItems_map]

theorem recent_confidenceBuffer (lookback : ℕ) (deliveries : List Delivery) :
    recent lookback (after deliveries).confidenceBuffer =
      (lastItems (windowSize lookback) (executed deliveries)).map Delivery.confidenceSample := by
  rw [confidenceBuffer_after, recent_lastItems, lastItems_map]

theorem recent_pnlBuffer_withoutOpenings {lookback : ℕ} {deliveries : List Delivery}
    (cleared : NoOpening id (lastItems (windowSize lookback) (graded id [] deliveries))) :
    recent lookback (after (withoutOpenings id deliveries)).pnlBuffer =
      recent lookback (after deliveries).pnlBuffer := by
  have closes : graded id [] (withoutOpenings id deliveries) =
      withoutOpenings id (graded id [] deliveries) := graded_filter id [] deliveries
  rw [recent_pnlBuffer, recent_pnlBuffer, closes, lastItems_withoutOpenings cleared]

theorem recent_confidenceBuffer_withoutOpenings {lookback : ℕ} {deliveries : List Delivery}
    (cleared : NoOpening id (lastItems (windowSize lookback) (executed deliveries))) :
    recent lookback (after (withoutOpenings id deliveries)).confidenceBuffer =
      recent lookback (after deliveries).confidenceBuffer := by
  rw [recent_confidenceBuffer, recent_confidenceBuffer, executed_withoutOpenings,
    lastItems_withoutOpenings cleared]

/-- The win rate looks at the profits alone. -/
theorem winRate_withoutOpenings {lookback : ℕ} {deliveries : List Delivery}
    (cleared : NoOpening id (lastItems (windowSize lookback) (graded id [] deliveries))) :
    (after (withoutOpenings id deliveries)).winRate lookback =
      (after deliveries).winRate lookback := by
  rw [winRate, winRate, recent_pnlBuffer_withoutOpenings cleared]

/-- The information coefficient looks at both buffers, unless the database answers. -/
theorem informationCoefficient_withoutOpenings {lookback : ℕ} {deliveries : List Delivery}
    {rows : Option (List IcRow)}
    (cleared : ((rows.bind databaseSamples).bind Correlated.correlation).isNone →
      NoOpening id (lastItems (windowSize lookback) (graded id [] deliveries)) ∧
        NoOpening id (lastItems (windowSize lookback) (executed deliveries))) :
    (after (withoutOpenings id deliveries)).informationCoefficient lookback rows =
      (after deliveries).informationCoefficient lookback rows := by
  rw [informationCoefficient, informationCoefficient]
  cases answer : (rows.bind databaseSamples).bind Correlated.correlation with
  | some ic => rfl
  | none =>
      obtain ⟨trades, executions⟩ := cleared (by rw [answer]; rfl)
      rw [bufferSamples, bufferSamples, recent_pnlBuffer_withoutOpenings trades,
        recent_confidenceBuffer_withoutOpenings executions]

end GradeAgent

namespace IcUpdater

theorem series_after (updates : List (Delivery × ℚ)) :
    (after updates).series = (lastItems 100 (graded Prod.fst [] updates)).map scorePnl := by
  rw [series, lastItems_min_length, scorePnlBuffer_after,
    lastItems_lastItems (by decide), lastItems_map]

theorem series_withoutOpenings {updates : List (Delivery × ℚ)}
    (cleared : NoOpening Prod.fst (lastItems 100 (graded Prod.fst [] updates))) :
    (after (withoutOpenings Prod.fst updates)).series = (after updates).series := by
  have closes : graded Prod.fst [] (withoutOpenings Prod.fst updates) =
      withoutOpenings Prod.fst (graded Prod.fst [] updates) := graded_filter Prod.fst [] updates
  rw [series_after, series_after, closes, lastItems_withoutOpenings cleared]

end IcUpdater

/-! ## What an opening fill changes -/

/-- An opening fill counts as a profit of zero. -/
theorem Delivery.pnl_opening {delivery : Delivery} (opens : delivery.fill.closes = false) :
    delivery.pnl = 0 := by
  cases delivery with
  | execution fill | performance fill =>
      rw [pnl, fill.pnlValue_opening opens]
      rfl
  | completed fill closes => cases closes.symm.trans opens

theorem exists_opening {α : Type} {delivery : α → Delivery} {events : List α}
    (uncleared : ¬NoOpening delivery events) :
    ∃ event ∈ events, (delivery event).fill.closes = false := by
  rw [NoOpening] at uncleared
  push Not at uncleared
  simpa using uncleared

theorem noOpening_withoutOpenings {α : Type} (delivery : α → Delivery) (events : List α)
    (count : ℕ) : NoOpening delivery (lastItems count (withoutOpenings delivery events)) := by
  intro event member
  have kept : event ∈ withoutOpenings delivery events := by
    rw [lastItems] at member
    exact List.mem_of_mem_drop member
  exact (List.mem_filter.mp kept).2

def winRateOf (trades : List Delivery) : ℚ :=
  if trades = [] then 1 / 2 else trades.countP (0 < ·.pnl) / trades.length

theorem GradeAgent.winRate_after (lookback : ℕ) (deliveries : List Delivery) :
    (after deliveries).winRate lookback =
      winRateOf (lastItems (windowSize lookback) (graded id [] deliveries)) := by
  rw [winRate, winRateOf, recent_pnlBuffer, List.countP_map, List.length_map]
  simp only [List.map_eq_nil_iff]
  rfl

theorem winRateOf_winners {trades : List Delivery} (win : ∀ trade ∈ trades, 0 < trade.pnl) :
    winRateOf trades = if trades = [] then 1 / 2 else 1 := by
  rw [winRateOf]
  split
  · rfl
  · rename_i filled
    have all : trades.countP (fun trade => decide (0 < trade.pnl)) = trades.length :=
      List.countP_eq_length.mpr fun trade member => by simpa using win trade member
    have nonzero : (trades.length : ℚ) ≠ 0 := by
      exact_mod_cast (List.length_pos_iff.mpr filled).ne'
    rw [all, div_self nonzero]

theorem winRateOf_openings {trades : List Delivery} (filled : trades ≠ [])
    (openings : ∀ trade ∈ trades, trade.fill.closes = false) : winRateOf trades = 0 := by
  have none_wins : trades.countP (fun trade => decide (0 < trade.pnl)) = 0 := by
    rw [List.countP_eq_zero]
    intro trade member
    rw [Delivery.pnl_opening (openings trade member)]
    simp
  rw [winRateOf, if_neg filled, none_wins, Nat.cast_zero, zero_div]

/-- An opening fill among the trades makes a win rate less than that of a win. -/
theorem winRateOf_lt_one {trades : List Delivery} (uncleared : ¬NoOpening id trades) :
    trades ≠ [] ∧ winRateOf trades < 1 := by
  obtain ⟨opening, member, opens⟩ := exists_opening uncleared
  have filled : trades ≠ [] := List.ne_nil_of_mem member
  have some_lose : trades.countP (fun trade => decide (0 < trade.pnl)) < trades.length := by
    rw [List.countP_lt_length_iff]
    refine ⟨opening, member, ?_⟩
    have unrealized : opening.pnl = 0 := Delivery.pnl_opening opens
    rw [unrealized]
    rfl
  have positive : (0 : ℚ) < trades.length := by exact_mod_cast List.length_pos_iff.mpr filled
  refine ⟨filled, ?_⟩
  rw [winRateOf, if_neg filled, div_lt_one positive]
  exact_mod_cast some_lose

theorem windowSize_pos (lookback : ℕ) : 0 < windowSize lookback := by
  rw [windowSize, bufferMaxlen]
  split <;> omega

theorem lastItems_eq_nil {α : Type} {count : ℕ} (room : 0 < count) {items : List α}
    (nothing : lastItems count items = []) : items = [] := by
  rw [lastItems, List.drop_eq_nil_iff] at nothing
  have empty : items.length = 0 := by omega
  exact List.length_eq_zero_iff.mp empty

theorem noOpening_of_winRate {lookback : ℕ} {deliveries : List Delivery}
    (win : ∀ delivery ∈ deliveries, delivery.fill.closes = true → 0 < delivery.pnl)
    (same : (GradeAgent.after (withoutOpenings id deliveries)).winRate lookback =
      (GradeAgent.after deliveries).winRate lookback) :
    NoOpening id (lastItems (windowSize lookback) (graded id [] deliveries)) := by
  by_contra uncleared
  obtain ⟨filled, less⟩ := winRateOf_lt_one uncleared
  have closes : graded id [] (withoutOpenings id deliveries) =
      withoutOpenings id (graded id [] deliveries) := graded_filter id [] deliveries
  have winners : ∀ trade ∈ lastItems (windowSize lookback)
      (withoutOpenings id (graded id [] deliveries)), 0 < trade.pnl := by
    intro trade member
    have kept := noOpening_withoutOpenings id (graded id [] deliveries) _ trade member
    refine win trade ?_ kept
    rw [lastItems] at member
    exact (graded_sublist id [] deliveries).subset
      (List.mem_of_mem_filter (List.mem_of_mem_drop member))
  rw [GradeAgent.winRate_after, GradeAgent.winRate_after, closes,
    winRateOf_winners winners] at same
  split at same
  · -- no trade is left, so all that were in the window opened a position
    rename_i nothing
    have left := lastItems_eq_nil (windowSize_pos lookback) nothing
    have openings : ∀ trade ∈ lastItems (windowSize lookback) (graded id [] deliveries),
        trade.fill.closes = false := by
      intro trade member
      rw [lastItems] at member
      have dropped := List.filter_eq_nil_iff.mp left trade (List.mem_of_mem_drop member)
      simpa using dropped
    rw [winRateOf_openings filled openings] at same
    norm_num at same
  · rw [← same] at less
    exact lt_irrefl 1 less

/-- Where every close has a profit or a loss, an opening fill in the window shows in the series. -/
theorem noOpening_of_series {updates : List (Delivery × ℚ)}
    (realized : ∀ update ∈ updates, update.1.fill.closes = true → update.1.pnl ≠ 0)
    (same : (IcUpdater.after (withoutOpenings Prod.fst updates)).series =
      (IcUpdater.after updates).series) :
    NoOpening Prod.fst (lastItems 100 (graded Prod.fst [] updates)) := by
  by_contra uncleared
  obtain ⟨opening, member, opens⟩ := exists_opening uncleared
  have closes : graded Prod.fst [] (withoutOpenings Prod.fst updates) =
      withoutOpenings Prod.fst (graded Prod.fst [] updates) := graded_filter Prod.fst [] updates
  have shown := List.mem_map_of_mem (f := IcUpdater.scorePnl) member
  rw [← IcUpdater.series_after, ← same, IcUpdater.series_after, closes] at shown
  obtain ⟨close, remains, equal⟩ := List.mem_map.mp shown
  have kept := noOpening_withoutOpenings Prod.fst (graded Prod.fst [] updates) _ close remains
  have original : close ∈ updates := by
    rw [lastItems] at remains
    exact (graded_sublist Prod.fst [] updates).subset
      (List.mem_of_mem_filter (List.mem_of_mem_drop remains))
  refine realized close original kept ?_
  rw [IcUpdater.scorePnl, IcUpdater.scorePnl, Delivery.pnl_opening opens] at equal
  exact congrArg Prod.snd equal

/-- What the learning agents compute is the same without the events of opening fills while none of
these is in a window, and where the profits of the closes tell, only then. -/
theorem openings_neutral_while (deliveries : List Delivery) (updates : List (Delivery × ℚ))
    (lookback : ℕ) (rows : Option (List IcRow)) :
    (NoOpening id (lastItems (windowSize lookback) (graded id [] deliveries)) →
      (GradeAgent.after (withoutOpenings id deliveries)).winRate lookback =
        (GradeAgent.after deliveries).winRate lookback) ∧
    ((((rows.bind databaseSamples).bind Correlated.correlation).isNone →
        NoOpening id (lastItems (windowSize lookback) (graded id [] deliveries)) ∧
          NoOpening id (lastItems (windowSize lookback) (executed deliveries))) →
      (GradeAgent.after (withoutOpenings id deliveries)).informationCoefficient lookback rows =
        (GradeAgent.after deliveries).informationCoefficient lookback rows) ∧
    (NoOpening Prod.fst (lastItems 100 (graded Prod.fst [] updates)) →
      (IcUpdater.after (withoutOpenings Prod.fst updates)).series =
        (IcUpdater.after updates).series) ∧
    ((∀ delivery ∈ deliveries, delivery.fill.closes = true → 0 < delivery.pnl) →
      (GradeAgent.after (withoutOpenings id deliveries)).winRate lookback =
        (GradeAgent.after deliveries).winRate lookback →
      NoOpening id (lastItems (windowSize lookback) (graded id [] deliveries))) ∧
    ((∀ update ∈ updates, update.1.fill.closes = true → update.1.pnl ≠ 0) →
      (IcUpdater.after (withoutOpenings Prod.fst updates)).series =
        (IcUpdater.after updates).series →
      NoOpening Prod.fst (lastItems 100 (graded Prod.fst [] updates))) := by
  refine ⟨?_, ?_, ?_, ?_, ?_⟩
  · exact GradeAgent.winRate_withoutOpenings
  · exact GradeAgent.informationCoefficient_withoutOpenings
  · exact IcUpdater.series_withoutOpenings
  · exact noOpening_of_winRate
  · exact noOpening_of_series

/-- Two round trips, each with its fills in the order in which they are published. -/
def roundTrips : List Delivery :=
  (PublishedFill.ofUnit "order-1" "trace-1" "buy" (4 / 5) none).deliveries ++
  (PublishedFill.ofUnit "order-2" "trace-2" "sell" (7 / 10) (some 5)).deliveries ++
  (PublishedFill.ofUnit "order-3" "trace-3" "buy" (3 / 5) none).deliveries ++
  (PublishedFill.ofUnit "order-4" "trace-4" "sell" (9 / 10) (some 10)).deliveries

/-- The last trade and the last execution close a round trip, so with a lookback of one nothing
depends on the opening fills. -/
theorem openings_neutral_last :
    (GradeAgent.after (withoutOpenings id roundTrips)).winRate 1 =
      (GradeAgent.after roundTrips).winRate 1 ∧
    (GradeAgent.after (withoutOpenings id roundTrips)).informationCoefficient 1 none =
      (GradeAgent.after roundTrips).informationCoefficient 1 none ∧
    NoOpening Prod.fst (lastItems 100 (graded Prod.fst []
      ((withoutOpenings id roundTrips).map fun delivery => (delivery, (1 / 2 : ℚ))))) := by
  have neutral := openings_neutral_while roundTrips
    ((withoutOpenings id roundTrips).map fun delivery => (delivery, 1 / 2)) 1 none
  have trades : NoOpening id (lastItems (windowSize 1) (graded id [] roundTrips)) := by
    rw [NoOpening]
    decide +kernel
  have executions : NoOpening id (lastItems (windowSize 1) (executed roundTrips)) := by
    rw [NoOpening]
    decide +kernel
  exact ⟨neutral.1 trades, neutral.2.1 fun _ => ⟨trades, executions⟩,
    neutral.2.2.2.2 (by decide +kernel) (by decide +kernel)⟩

/-- Both opening fills count as trades that did not win, and the updater correlates them. -/
theorem openings_change_grades :
    (GradeAgent.after roundTrips).winRate 50 = 1 / 2 ∧
    (GradeAgent.after (withoutOpenings id roundTrips)).winRate 50 = 1 ∧
    (GradeAgent.after roundTrips).informationCoefficient 50 none = 2 / 5 ∧
    (GradeAgent.after (withoutOpenings id roundTrips)).informationCoefficient 50 none = 0 ∧
    (IcUpdater.after (roundTrips.map fun delivery => (delivery, 1 / 2))).series =
      [(1 / 2, 0), (1 / 2, 5), (1 / 2, 0), (1 / 2, 10)] ∧
    (IcUpdater.after (withoutOpenings Prod.fst
      (roundTrips.map fun delivery => (delivery, 1 / 2)))).series = [(1 / 2, 5), (1 / 2, 10)] := by
  decide +kernel

end TradingControl.Learning
