import TradingControl.Backtest.Causal
import TradingControl.Cognitive.PairedBacktests

/-!
# No look-ahead

What a configuration decides on a bar, and what follows from it, depends on the prices and the news
up to the bar.
-/

namespace TradingControl.Cognitive

open Python

namespace NoLookAhead

open PairedBacktests

/-! ## Decisions -/

/-- Prices and news are the same on the first bars. -/
structure Agree (count : ℕ) (first second : List ℚ) (news others : Option (List ℚ)) : Prop where
  prices : first.take count = second.take count
  news : ∀ index < count, news.bind (·[index]?) = others.bind (·[index]?)

variable {runtime : Runtime} {config : CognitiveConfig} {seed : ℤ} {count : ℕ}
  {first second : List ℚ} {news others : Option (List ℚ)}

theorem barFeatures_congr (agree : Agree count first second news others) {index : ℕ}
    (within : index < count) (price : ℚ) :
    barFeatures runtime first news index price = barFeatures runtime second others index price := by
  have history : first.take (index + 1) = second.take (index + 1) := by
    have shorter := congrArg (List.take (index + 1)) agree.prices
    rwa [List.take_take, List.take_take, min_eq_left within] at shorter
  rw [barFeatures, barFeatures, history, agree.news index within]

/-! ## Bars -/

theorem backtestBars_append (prices : List ℚ) (index : ℕ) (before rest : List ℚ)
    (state : BacktestState) :
    backtestBars runtime config seed prices news index (before ++ rest) state =
      backtestBars runtime config seed prices news index before state >>=
        backtestBars runtime config seed prices news (index + before.length) rest := by
  induction before generalizing index state with
  | nil => rfl
  | cons price before induction =>
      rw [List.cons_append, backtestBars, backtestBars, List.length_cons]
      cases backtestBar runtime config seed prices news state index price with
      | error raised => rfl
      | ok next =>
          change backtestBars runtime config seed prices news (index + 1) (before ++ rest) next = _
          rw [induction, Nat.add_right_comm]
          rfl

theorem backtestBars_prefix (agree : Agree count first second news others) (index : ℕ)
    (rest : List ℚ) (within : index + rest.length ≤ count) (state : BacktestState) :
    backtestBars runtime config seed first news index rest state =
      backtestBars runtime config seed second others index rest state := by
  induction rest generalizing index state with
  | nil => rfl
  | cons price rest induction =>
      rw [List.length_cons] at within
      have bar : backtestBar runtime config seed first news state index price =
          backtestBar runtime config seed second others state index price := by
        rw [backtestBar, backtestBar, barFeatures_congr agree (by omega)]
      rw [backtestBars, backtestBars, bar]
      exact congrArg _ (funext fun next => induction (index + 1) (by omega) next)

/-- Moving a position marks nothing. -/
theorem flip_equityCurve {state next : BacktestState} {price : ℚ} {direction : ℤ}
    (moved : flip runtime seed state price direction = .ok next) :
    next.equityCurve = state.equityCurve := by
  have opened : ∀ before : BacktestState, openLot runtime seed before price direction = .ok next →
      next.equityCurve = before.equityCurve := by
    intro before opens
    rw [openLot] at opens
    dsimp only at opens
    split_ifs at opens
    cases opens
    rfl
  rw [flip] at moved
  dsimp only at moved
  split_ifs at moved
  · cases moved
    rfl
  · exact (opened (closeLot runtime seed state price) moved :)
  · exact opened state moved
  · cases moved
    rfl
  · cases moved
    rfl

theorem backtestBars_equityCurve {prices : List ℚ} {index : ℕ} {rest : List ℚ}
    {state last : BacktestState}
    (ran : backtestBars runtime config seed prices news index rest state = .ok last) :
    ∃ more, last.equityCurve = state.equityCurve ++ more ∧ more.length = rest.length := by
  induction rest generalizing index state with
  | nil =>
      cases ran
      exact ⟨[], by simp⟩
  | cons price rest induction =>
      obtain ⟨next, bar, ran⟩ := bind_eq_ok.mp ran
      obtain ⟨more, curve, length⟩ := induction ran
      obtain ⟨moved, flips, marks⟩ := bind_eq_ok.mp bar
      cases marks
      rw [flip_equityCurve flips, List.append_assoc] at curve
      exact ⟨_, curve, by simp [length]⟩

/-! ## Fills -/

theorem bar_of_mem_flipSlots {bar drawn : ℕ} {held direction : ℤ} {slot : Slot}
    (member : slot ∈ flipSlots bar held direction drawn) : slot.bar = bar := by
  rw [flipSlots] at member
  split_ifs at member <;> simp_all
  rcases member with rfl | rfl <;> rfl

/-- The slots of actions from a bar on lie at that bar or later. -/
theorem le_bar_of_mem_slotsFrom {index drawn : ℕ} {actions : List String} {held : ℤ} {slot : Slot}
    (some : actions ≠ []) (member : slot ∈ slotsFrom index actions held drawn) :
    index ≤ slot.bar := by
  induction actions generalizing index held drawn with
  | nil => exact absurd rfl some
  | cons action rest induction =>
      rw [slotsFrom] at member
      rcases List.mem_append.mp member with now | later
      · exact (bar_of_mem_flipSlots now).ge
      · cases rest with
        | nil =>
            rw [slotsFrom] at later
            split_ifs at later
            · rw [List.mem_singleton.mp later]
              exact Nat.le_refl index
            · cases later
        | cons next rest => exact Nat.le_of_succ_le (induction (by simp) later)

theorem slotsFrom_congr {index drawn gap : ℕ} {actions others : List String} {held : ℤ}
    (same : actions.take gap = others.take gap) (long : gap < actions.length)
    (longToo : gap < others.length) :
    (slotsFrom index actions held drawn).filter (fun slot => slot.bar < index + gap) =
      (slotsFrom index others held drawn).filter (fun slot => slot.bar < index + gap) := by
  induction gap generalizing index actions others held drawn with
  | zero =>
      have none : ∀ actions : List String, 0 < actions.length →
          (slotsFrom index actions held drawn).filter (fun slot => slot.bar < index + 0) = [] := by
        intro actions some
        rw [List.filter_eq_nil_iff]
        intro slot member early
        have late := le_bar_of_mem_slotsFrom (List.ne_nil_of_length_pos some) member
        exact absurd (of_decide_eq_true early) (by omega)
      rw [none actions long, none others longToo]
  | succ gap induction =>
      match actions, others, long, longToo with
      | action :: rest, other :: following, long, longToo =>
          rw [List.take_succ_cons, List.take_succ_cons] at same
          obtain ⟨rfl, tails⟩ := List.cons.inj same
          rw [List.length_cons] at long longToo
          have later := @induction (index + 1)
          simp only [Nat.add_right_comm index 1 gap] at later
          rw [slotsFrom, slotsFrom, List.filter_append, List.filter_append,
            ← Nat.add_assoc, later tails (by omega) (by omega)]

theorem getElem?_actions (prices : List ℚ) (index : ℕ) :
    (actions runtime prices config news)[index]? = prices[index]?.map fun price =>
      (decideAction (barFeatures runtime prices news index price) config).action := by
  simp [actions, actionsFrom, List.getElem?_zipIdx]
  rfl

theorem length_actions (prices : List ℚ) :
    (actions runtime prices config news).length = prices.length := by
  simp [actions, actionsFrom]

theorem actions_congr (agree : Agree count first second news others) :
    (actions runtime first config news).take count =
      (actions runtime second config others).take count := by
  apply List.ext_getElem?
  intro index
  by_cases within : index < count
  · have quoted : first[index]? = second[index]? := by
      have same := congrArg (fun prices => prices[index]?) agree.prices
      simpa only [List.getElem?_take_of_lt within] using same
    rw [List.getElem?_take_of_lt within, List.getElem?_take_of_lt within, getElem?_actions,
      getElem?_actions, quoted]
    simp only [barFeatures_congr agree within]
  · rw [List.getElem?_eq_none, List.getElem?_eq_none]
    · exact (List.length_take_le _ _).trans (not_lt.mp within)
    · exact (List.length_take_le _ _).trans (not_lt.mp within)

theorem fill_congr (agree : Agree count first second news others) {slot : Slot}
    (within : slot.bar < count) : slot.fill runtime seed first = slot.fill runtime seed second := by
  have quoted : first.getD slot.bar 0 = second.getD slot.bar 0 := by
    have same := congrArg (fun prices => prices[slot.bar]?) agree.prices
    simp only [List.getElem?_take_of_lt within] at same
    rw [List.getD_eq_getElem?_getD, List.getD_eq_getElem?_getD, same]
  rw [Slot.fill, Slot.fill, quoted]

/-- The fills of a run before a bar. -/
def fillsBefore (count : ℕ) (fills : List Fill) : List Fill :=
  fills.filter fun fill => fill.bar < count

theorem fillsBefore_eq {prices : List ℚ} {fills : List Fill}
    (ran : runFills runtime prices config news seed = .ok fills) :
    fillsBefore count fills =
      ((schedule (actions runtime prices config news)).filter fun slot => slot.bar < count).map
        (Slot.fill runtime seed prices) := by
  rw [runFills_eq] at ran
  split_ifs at ran
  cases ran
  rw [fillsBefore, scheduledFills, List.filter_map]
  rfl

theorem fillsBefore_congr (agree : Agree count first second news others)
    (long : count < first.length) (longToo : count < second.length) {fills fillsToo : List Fill}
    (ran : runFills runtime first config news seed = .ok fills)
    (ranToo : runFills runtime second config others seed = .ok fillsToo) :
    fillsBefore count fills = fillsBefore count fillsToo := by
  have slots := @slotsFrom_congr 0 0 count _ _ 0 (@actions_congr runtime config _ _ _ _ _ agree)
    (by rwa [length_actions]) (by rwa [length_actions])
  rw [Nat.zero_add] at slots
  rw [fillsBefore_eq ran, fillsBefore_eq ranToo, schedule, schedule, slots]
  refine List.map_congr_left fun slot member => fill_congr agree ?_
  exact of_decide_eq_true (List.mem_filter.mp member).2

/-! ## Runs -/

variable (runtime config seed)

/-- The bars of a run. -/
def ranBars (prices : List ℚ) (news : Option (List ℚ)) : Except Raised BacktestState :=
  backtestBars runtime config seed prices news 0 prices { cash := defaultPaperCash }

/-- The bars of a run before the price of an index. -/
def ranBefore (count : ℕ) (prices : List ℚ) (news : Option (List ℚ)) :
    Except Raised BacktestState :=
  backtestBars runtime config seed prices news 0 (prices.take count) { cash := defaultPaperCash }

/-- What two runs of a configuration have in common before the price of an index. -/
structure SameBefore (count : ℕ) (first second : List ℚ) (news others : Option (List ℚ)) :
    Prop where
  passed : ranBefore runtime config seed count first news =
    ranBefore runtime config seed count second others
  actions : (actions runtime first config news).take count =
    (PairedBacktests.actions runtime second config others).take count
  fills : ∀ fills fillsToo, runFills runtime first config news seed = .ok fills →
    runFills runtime second config others seed = .ok fillsToo →
      fillsBefore count fills = fillsBefore count fillsToo
  equity : ∀ state other, ranBars runtime config seed first news = .ok state →
    ranBars runtime config seed second others = .ok other →
      state.equityCurve.take count = other.equityCurve.take count

variable {runtime config seed}

theorem take_equityCurve {prices : List ℚ} {state : BacktestState} (long : count < prices.length)
    (ran : ranBars runtime config seed prices news = .ok state) :
    ∃ passed, ranBefore runtime config seed count prices news = .ok passed ∧
      state.equityCurve.take count = passed.equityCurve := by
  have split := @backtestBars_append runtime config seed news prices 0 (prices.take count)
    (prices.drop count) { cash := defaultPaperCash }
  rw [List.take_append_drop] at split
  rw [ranBars, split] at ran
  obtain ⟨passed, passes, rest⟩ := bind_eq_ok.mp ran
  obtain ⟨marks, before, length⟩ := backtestBars_equityCurve passes
  obtain ⟨more, curve, -⟩ := backtestBars_equityCurve rest
  rw [List.length_take_of_le long.le] at length
  have marked : passed.equityCurve.length = count := by
    rw [before, List.nil_append, length]
  exact ⟨passed, passes, by rw [curve, List.take_left' marked]⟩

theorem sameBefore (agree : Agree count first second news others) (long : count < first.length)
    (longToo : count < second.length) :
    SameBefore runtime config seed count first second news others := by
  have passed : ranBefore runtime config seed count first news =
      ranBefore runtime config seed count second others := by
    rw [ranBefore, ranBefore, agree.prices]
    exact backtestBars_prefix agree 0 _ (by simp) _
  refine ⟨passed, actions_congr agree, fun fills fillsToo =>
    fillsBefore_congr agree long longToo, fun state other ran ranToo => ?_⟩
  obtain ⟨reached, reaches, curve⟩ := take_equityCurve long ran
  obtain ⟨reachedToo, reachesToo, curveToo⟩ := take_equityCurve longToo ranToo
  rw [reaches, reachesToo] at passed
  cases passed
  exact curve.trans curveToo.symm

/-- Neither backtest looks ahead: what two runs compute for the bars before a price is the same if
the series agree up to there. -/
theorem no_look_ahead (agree : Agree count first second news others) (long : count < first.length)
    (longToo : count < second.length) :
    (∀ config : Backtest.BacktestConfig, Backtest.SameBefore config count first second) ∧
      ∀ (runtime : Runtime) (config : CognitiveConfig) (seed : ℤ),
        SameBefore runtime config seed count first second news others :=
  ⟨fun _ => Backtest.sameBefore _ agree.prices long longToo,
    fun _ _ _ => sameBefore agree long longToo⟩

theorem no_look_ahead_crash :
    (∀ config : Backtest.BacktestConfig,
      Backtest.SameBefore config 3 [100, 104, 99, 20] [100, 104, 99, 180, 200]) ∧
      ∀ (runtime : Runtime) (config : CognitiveConfig) (seed : ℤ),
        SameBefore runtime config seed 3 [100, 104, 99, 20] [100, 104, 99, 180, 200]
          (some [1 / 2, -1, 0, 1]) (some [1 / 2, -1, 0]) :=
  no_look_ahead ⟨rfl, by decide +kernel⟩ (by decide) (by decide)

end NoLookAhead

end TradingControl.Cognitive
