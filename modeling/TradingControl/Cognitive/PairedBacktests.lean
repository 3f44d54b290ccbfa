import TradingControl.Cognitive.Backtest
import TradingControl.Python.Reference

/-!
# Slippage of paired runs

The two runs of an evaluation start the same generator, and each takes a draw for every fill it
makes.  What a fill costs depends on how many fills of its own run came before.
-/

namespace TradingControl.Cognitive

open Python

namespace PairedBacktests

/-! ## Fills of a run -/

/-- A fill that a run asked for, to open or to close a position. -/
structure Fill where
  bar : ℕ
  direction : ℤ
  opens : Bool
  price : ℚ
deriving DecidableEq

/-- The exit of the open position. -/
def exitFill (runtime : Runtime) (seed : ℤ) (state : BacktestState) (bar : ℕ) (price : ℚ) : Fill :=
  ⟨bar, -state.openDir, false, (backtestFill runtime seed state price (-state.openDir)).1⟩

/-- The fills with which `flip` moves a position. -/
def flipFills (runtime : Runtime) (seed : ℤ) (state : BacktestState) (bar : ℕ) (price : ℚ)
    (direction : ℤ) : List Fill :=
  if direction = state.openDir then []
  else
    let closed := if state.openDir ≠ 0 then closeLot runtime seed state price else state
    (if state.openDir ≠ 0 then [exitFill runtime seed state bar price] else []) ++
      if direction ≠ 0 then
        [⟨bar, direction, true, (backtestFill runtime seed closed price direction).1⟩]
      else []

def fillsFrom (runtime : Runtime) (config : CognitiveConfig) (seed : ℤ) (prices : List ℚ)
    (news : Option (List ℚ)) : ℕ → List ℚ → BacktestState → Except Raised (List Fill)
  | _, [], state =>
      .ok (match prices.getLast? with
        | none => []
        | some price =>
            if state.openDir ≠ 0 then [exitFill runtime seed state (prices.length - 1) price]
            else [])
  | index, price :: rest, state => do
      let decision := decideAction (barFeatures runtime prices news index price) config
      let made := flipFills runtime seed state index price (targetDir decision state.openDir)
      let next ← backtestBar runtime config seed prices news state index price
      return made ++ (← fillsFrom runtime config seed prices news (index + 1) rest next)

/-- The fills of `run_config_backtest`. -/
def runFills (runtime : Runtime) (prices : List ℚ) (config : CognitiveConfig)
    (news : Option (List ℚ)) (seed : ℤ) : Except Raised (List Fill) :=
  fillsFrom runtime config seed prices news 0 prices { cash := defaultPaperCash }

/-! ## Schedules -/

def actionsFrom (runtime : Runtime) (config : CognitiveConfig) (prices : List ℚ)
    (news : Option (List ℚ)) (index : ℕ) (rest : List ℚ) : List String :=
  (rest.zipIdx index).map fun (price, index) =>
    (decideAction (barFeatures runtime prices news index price) config).action

/-- The action that a configuration chooses on each bar. -/
def actions (runtime : Runtime) (prices : List ℚ) (config : CognitiveConfig)
    (news : Option (List ℚ)) : List String :=
  actionsFrom runtime config prices news 0 prices

/-- A fill to come, with its place among the draws. -/
structure Slot where
  bar : ℕ
  direction : ℤ
  opens : Bool
  position : ℕ
deriving DecidableEq

def aim (action : String) (held : ℤ) : ℤ :=
  if action = "buy" then 1 else if action = "sell" then -1 else held

/-- The fills that move a position to another direction. -/
def flipSlots (bar : ℕ) (held direction : ℤ) (drawn : ℕ) : List Slot :=
  if direction = held then []
  else
    (if held ≠ 0 then [⟨bar, -held, false, drawn⟩] else []) ++
      if direction ≠ 0 then [⟨bar, direction, true, if held ≠ 0 then drawn + 1 else drawn⟩] else []

/-- The fills that follow from the actions of the bars from an index on. -/
def slotsFrom : ℕ → List String → ℤ → ℕ → List Slot
  | index, [], held, drawn => if held ≠ 0 then [⟨index - 1, -held, false, drawn⟩] else []
  | index, action :: rest, held, drawn =>
      let slots := flipSlots index held (aim action held) drawn
      slots ++ slotsFrom (index + 1) rest (aim action held) (drawn + slots.length)

/-- The fills that follow from the actions of a whole run. -/
def schedule (actions : List String) : List Slot := slotsFrom 0 actions 0 0

def slipped (runtime : Runtime) (seed : ℤ) (price : ℚ) (direction : ℤ) (position : ℕ) : ℚ :=
  price * (1 + (if direction > 0 then 1 else -1) *
    runtime.uniform seed position (1 / 10000) (5 / 10000))

def Slot.fill (runtime : Runtime) (seed : ℤ) (prices : List ℚ) (slot : Slot) : Fill :=
  ⟨slot.bar, slot.direction, slot.opens,
    slipped runtime seed (prices.getD slot.bar 0) slot.direction slot.position⟩

/-- No position is opened at the price zero. -/
def Sized (fills : List Fill) : Prop := ∀ fill ∈ fills, fill.opens → fill.price ≠ 0

instance (fills : List Fill) : Decidable (Sized fills) := by
  unfold Sized
  infer_instance

variable {runtime : Runtime} {seed : ℤ} {prices : List ℚ}

/-! ## A run keeps to its schedule -/

theorem backtestFill_price (state : BacktestState) (price : ℚ) (direction : ℤ) :
    (backtestFill runtime seed state price direction).1 =
      slipped runtime seed price direction state.draws := rfl

theorem closeLot_draws (state : BacktestState) (price : ℚ) :
    (closeLot runtime seed state price).draws = state.draws + 1 := rfl

theorem flipFills_eq {state : BacktestState} {bar : ℕ} {price : ℚ}
    (quoted : prices.getD bar 0 = price) (direction : ℤ) :
    flipFills runtime seed state bar price direction =
      (flipSlots bar state.openDir direction state.draws).map (Slot.fill runtime seed prices) := by
  rw [flipFills, flipSlots]
  by_cases same : direction = state.openDir
  · rw [if_pos same, if_pos same, List.map_nil]
  · rw [if_neg same, if_neg same, List.map_append]
    subst quoted
    by_cases flat : state.openDir = 0 <;> by_cases none : direction = 0 <;>
      simp [flat, none, Slot.fill, backtestFill_price, exitFill, closeLot_draws]

theorem openLot_eq (state : BacktestState) (price : ℚ) (direction : ℤ) :
    (∃ next, openLot runtime seed state price direction = .ok next ∧ next.openDir = direction ∧
        next.draws = state.draws + 1 ∧ slipped runtime seed price direction state.draws ≠ 0) ∨
      (openLot runtime seed state price direction = .error .zeroDivisionError ∧
        slipped runtime seed price direction state.draws = 0) := by
  by_cases zero : slipped runtime seed price direction state.draws = 0
  · exact .inr ⟨if_pos zero, zero⟩
  · exact .inl ⟨_, if_neg zero, rfl, rfl, zero⟩

/-- A flip takes a draw for each of its fills, and fails if it opens a position at zero. -/
theorem flip_eq (state : BacktestState) (bar : ℕ) (price : ℚ) (direction : ℤ) :
    (∃ next, flip runtime seed state price direction = .ok next ∧ next.openDir = direction ∧
        next.draws = state.draws + (flipFills runtime seed state bar price direction).length ∧
        Sized (flipFills runtime seed state bar price direction)) ∨
      (flip runtime seed state price direction = .error .zeroDivisionError ∧
        ¬Sized (flipFills runtime seed state bar price direction)) := by
  rw [flip, flipFills]
  by_cases same : direction = state.openDir
  · rw [if_pos same, if_pos same]
    exact .inl ⟨state, rfl, same.symm, rfl, by simp [Sized]⟩
  rw [if_neg same, if_neg same]
  dsimp only
  by_cases flat : state.openDir = 0
  · have moves : direction ≠ 0 := fun none => same (none.trans flat.symm)
    rw [if_neg (not_not.mpr flat), if_pos moves, if_pos moves, if_neg (not_not.mpr flat)]
    rcases @openLot_eq runtime seed state price direction with
      ⟨next, opened, held, drawn, sized⟩ | ⟨failed, zero⟩
    · exact .inl ⟨next, opened, held, drawn, by simpa [Sized, backtestFill_price] using sized⟩
    · exact .inr ⟨failed, by simpa [Sized, backtestFill_price] using zero⟩
  rw [if_pos flat, if_pos flat]
  by_cases none : direction = 0
  · rw [if_neg (not_not.mpr none), if_neg (not_not.mpr none)]
    exact .inl ⟨_, rfl, none.symm, rfl, by simp [Sized, exitFill]⟩
  · rw [if_pos none, if_pos none]
    rcases @openLot_eq runtime seed (closeLot runtime seed state price) price
      direction with ⟨next, opened, held, drawn, sized⟩ | ⟨failed, zero⟩
    · exact .inl ⟨next, opened, held, drawn, by
        simpa [Sized, exitFill, backtestFill_price] using sized⟩
    · exact .inr ⟨failed, by simpa [Sized, exitFill, backtestFill_price] using zero⟩

variable {config : CognitiveConfig} {news : Option (List ℚ)}

theorem flipFills_signals (state : BacktestState) (signals bar : ℕ) (price : ℚ) (direction : ℤ) :
    flipFills runtime seed { state with signals } bar price direction =
      flipFills runtime seed state bar price direction := by
  rw [flipFills, flipFills]
  dsimp only
  by_cases flat : state.openDir = 0
  · simp only [ne_eq, flat, not_true_eq_false, if_false]
    rfl
  · simp only [ne_eq, flat, not_false_eq_true, if_true]
    rfl

/-- The fills of a bar, from the action that is chosen on it. -/
def barFills (runtime : Runtime) (config : CognitiveConfig) (seed : ℤ) (prices : List ℚ)
    (news : Option (List ℚ)) (state : BacktestState) (index : ℕ) (price : ℚ) : List Fill :=
  flipFills runtime seed state index price
    (targetDir (decideAction (barFeatures runtime prices news index price) config) state.openDir)

theorem backtestBar_eq (state : BacktestState) (index : ℕ) (price : ℚ) :
    (∃ next, backtestBar runtime config seed prices news state index price = .ok next ∧
        next.openDir = targetDir
          (decideAction (barFeatures runtime prices news index price) config) state.openDir ∧
        next.draws = state.draws +
          (barFills runtime config seed prices news state index price).length ∧
        Sized (barFills runtime config seed prices news state index price)) ∨
      (backtestBar runtime config seed prices news state index price =
          .error .zeroDivisionError ∧
        ¬Sized (barFills runtime config seed prices news state index price)) := by
  rw [backtestBar, barFills]
  generalize decideAction (barFeatures runtime prices news index price) config = decision
  dsimp only
  generalize isCounted : (if decision.isTrade then state.signals + 1 else state.signals) = signals
  rcases @flip_eq runtime seed { state with signals } index price
    (targetDir decision state.openDir) with ⟨next, moved, held, drawn, sized⟩ | ⟨failed, unsized⟩
  · rw [flipFills_signals] at drawn sized
    rw [moved]
    exact .inl ⟨_, rfl, held, drawn, sized⟩
  · rw [flipFills_signals] at unsized
    rw [failed]
    exact .inr ⟨rfl, unsized⟩

theorem sized_append {first second : List Fill} :
    Sized (first ++ second) ↔ Sized first ∧ Sized second :=
  List.forall_mem_append

/-- The exit after the last bar. -/
theorem fillsFrom_nil (before : List ℚ) (split : prices = before) (state : BacktestState)
    (started : before = [] → state.openDir = 0) :
    fillsFrom runtime config seed prices news before.length [] state =
      .ok ((slotsFrom before.length [] state.openDir state.draws).map
        (Slot.fill runtime seed prices)) := by
  subst split
  rw [fillsFrom, slotsFrom]
  rcases List.eq_nil_or_concat prices with rfl | ⟨init, last, rfl⟩
  · rw [if_neg (not_not.mpr (started rfl))]
    rfl
  · rw [List.concat_eq_append, List.getLast?_concat]
    by_cases flat : state.openDir = 0
    · simp [flat]
    · simp [flat, exitFill, Slot.fill, backtestFill_price]

theorem sized_exit (bar : ℕ) (openDir : ℤ) (draws : ℕ) :
    Sized ((slotsFrom bar [] openDir draws).map (Slot.fill runtime seed prices)) := by
  rw [slotsFrom]
  split_ifs <;> simp [Sized, Slot.fill]

theorem bind_sized {first rest : List Fill} (sized : Sized first) (raised : Raised) :
    ((if Sized rest then Except.ok rest else .error raised) >>= fun later =>
        Except.ok (first ++ later)) =
      if Sized (first ++ rest) then .ok (first ++ rest) else .error raised := by
  by_cases later : Sized rest
  · rw [if_pos later, if_pos (sized_append.mpr ⟨sized, later⟩)]
    rfl
  · rw [if_neg later, if_neg fun all => later (sized_append.mp all).2]
    rfl

theorem fillsFrom_eq (before rest : List ℚ) (split : prices = before ++ rest)
    (state : BacktestState) (started : before = [] → state.openDir = 0) {fills : List Fill}
    (scheduled : fills = (slotsFrom before.length
      (actionsFrom runtime config prices news before.length rest) state.openDir
        state.draws).map (Slot.fill runtime seed prices)) :
    fillsFrom runtime config seed prices news before.length rest state =
      if Sized fills then .ok fills else .error .zeroDivisionError := by
  induction rest generalizing before state fills with
  | nil =>
      rw [fillsFrom_nil before (by rw [split, List.append_nil]) state started]
      have exits : Sized fills := by
        rw [scheduled]
        exact sized_exit _ _ _
      rw [if_pos exits, scheduled]
      rfl
  | cons price rest induction =>
      have quoted : prices.getD before.length 0 = price := by simp [split]
      have made := @flipFills_eq runtime seed prices state _ _ quoted
        (targetDir (decideAction (barFeatures runtime prices news before.length price) config)
          state.openDir)
      change barFills runtime config seed prices news state before.length price = _ at made
      have following := @induction (before ++ [price]) (by rw [split, List.append_assoc]; rfl)
      rw [List.length_append, List.length_singleton] at following
      have parts : fills = barFills runtime config seed prices news state before.length price ++
          (slotsFrom (before.length + 1)
            (actionsFrom runtime config prices news (before.length + 1) rest)
            (targetDir (decideAction (barFeatures runtime prices news before.length price) config)
              state.openDir)
            (state.draws +
              (barFills runtime config seed prices news state before.length price).length)).map
            (Slot.fill runtime seed prices) := by
        rw [scheduled, made, List.length_map, ← List.map_append]
        rfl
      rw [fillsFrom]
      change (backtestBar runtime config seed prices news state before.length price >>= _) = _
      rcases @backtestBar_eq runtime seed prices config news state before.length price with
        ⟨next, moved, held, drawn, sized⟩ | ⟨failed, unsized⟩
      · rw [moved]
        change (fillsFrom runtime config seed prices news (before.length + 1) rest next >>= _) = _
        rw [← held, ← drawn] at parts
        rw [following next (by simp) rfl, parts]
        exact bind_sized sized _
      · rw [failed, if_neg]
        · rfl
        · rw [parts, sized_append]
          exact fun all => unsized all.1

def scheduledFills (runtime : Runtime) (prices : List ℚ) (config : CognitiveConfig)
    (news : Option (List ℚ)) (seed : ℤ) : List Fill :=
  (schedule (actions runtime prices config news)).map (Slot.fill runtime seed prices)

theorem runFills_eq (runtime : Runtime) (prices : List ℚ) (config : CognitiveConfig)
    (news : Option (List ℚ)) (seed : ℤ) :
    runFills runtime prices config news seed =
      if Sized (scheduledFills runtime prices config news seed) then
        .ok (scheduledFills runtime prices config news seed)
      else .error .zeroDivisionError :=
  fillsFrom_eq [] prices rfl _ (fun _ => rfl) rfl

/-! ## What is promised -/

/-- The evaluation, if it gives one, sees no difference. -/
def ZeroDeltas (runtime : Runtime) (prices : List ℚ) (baseline candidate : CognitiveConfig)
    (news : Option (List ℚ)) (seed : ℤ) : Prop :=
  ∀ delta, evaluateProposal runtime prices baseline candidate news seed = .ok delta →
    delta.pnlDelta = 0 ∧ delta.sharpeDelta = 0 ∧ delta.drawdownDelta = 0 ∧
      delta.falsePositiveRateDelta = 0

/-- The configurations decide by the same thresholds and the same weights of all other signals. -/
structure DifferOnlyIn (signal : String) (first second : CognitiveConfig) : Prop where
  buyThreshold : first.buyThreshold = second.buyThreshold
  sellThreshold : first.sellThreshold = second.sellThreshold
  weights : ∀ other, other ≠ signal → first.weights.lookup other = second.weights.lookup other

/-- The signal says nothing on any bar. -/
def Silent (runtime : Runtime) (prices : List ℚ) (news : Option (List ℚ)) (signal : String) :
    Prop :=
  ∀ index price, prices[index]? = some price →
    ((barFeatures runtime prices news index price).lookup signal).getD 0 = 0

/-- Two fills that are the same but for their prices. -/
def Fill.Same (first second : Fill) : Prop :=
  first.bar = second.bar ∧ first.direction = second.direction ∧ first.opens = second.opens

structure Paired (runtime : Runtime) (prices : List ℚ) (baseline candidate : CognitiveConfig)
    (news : Option (List ℚ)) (seed : ℤ) : Prop where
  sameActions : actions runtime prices baseline news = actions runtime prices candidate news →
    ZeroDeltas runtime prices baseline candidate news seed
  silentWeight : ∀ signal, DifferOnlyIn signal baseline candidate →
    Silent runtime prices news signal → ZeroDeltas runtime prices baseline candidate news seed
  samePrices : ∀ first second, runFills runtime prices baseline news seed = .ok first →
    runFills runtime prices candidate news seed = .ok second →
      ∀ fill ∈ first, ∀ other ∈ second, fill.Same other → fill.price = other.price

/-! ## Equal actions -/

theorem decideAction_breakdown_congr {features : Dict String ℚ} {first second : CognitiveConfig}
    {signal : String} (differ : DifferOnlyIn signal first second)
    (silent : (features.lookup signal).getD 0 = 0) :
    (decideAction features first).action = (decideAction features second).action := by
  have contributions : ∀ key,
      roundHalfEven 6 ((features.lookup key).getD 0 * (first.weights.lookup key).getD 0) =
        roundHalfEven 6 ((features.lookup key).getD 0 * (second.weights.lookup key).getD 0) := by
    intro key
    by_cases same : key = signal
    · rw [same, silent, zero_mul, zero_mul]
    · rw [differ.weights key same]
  rw [decideAction, decideAction]
  simp only [contributions, differ.buyThreshold, differ.sellThreshold]

theorem actions_congr_of_silent {baseline candidate : CognitiveConfig} {signal : String}
    (differ : DifferOnlyIn signal baseline candidate)
    (silent : Silent runtime prices news signal) :
    actions runtime prices baseline news = actions runtime prices candidate news := by
  refine List.map_congr_left ?_
  rintro ⟨price, index⟩ member
  exact decideAction_breakdown_congr differ
    (silent index price (List.mk_mem_zipIdx_iff_getElem?.mp member))

/-- A bar depends on the configuration by the action alone. -/
theorem backtestBar_congr {baseline candidate : CognitiveConfig} {index : ℕ} {price : ℚ}
    (same : (decideAction (barFeatures runtime prices news index price) baseline).action =
      (decideAction (barFeatures runtime prices news index price) candidate).action)
    (state : BacktestState) :
    backtestBar runtime baseline seed prices news state index price =
      backtestBar runtime candidate seed prices news state index price := by
  rw [backtestBar, backtestBar]
  revert same
  generalize decideAction (barFeatures runtime prices news index price) baseline = first
  generalize decideAction (barFeatures runtime prices news index price) candidate = second
  obtain ⟨action, score, breakdown, buyThreshold, sellThreshold⟩ := first
  rintro rfl
  rfl

theorem backtestBars_congr {baseline candidate : CognitiveConfig} (index : ℕ) (rest : List ℚ)
    (same : actionsFrom runtime baseline prices news index rest =
      actionsFrom runtime candidate prices news index rest) (state : BacktestState) :
    backtestBars runtime baseline seed prices news index rest state =
      backtestBars runtime candidate seed prices news index rest state := by
  induction rest generalizing index state with
  | nil => rfl
  | cons price rest induction =>
      obtain ⟨now, later⟩ := List.cons.inj same
      rw [backtestBars, backtestBars, backtestBar_congr now state]
      exact congrArg _ (funext fun next => induction (index + 1) later next)

theorem zeroDeltas_of_actions {baseline candidate : CognitiveConfig}
    (same : actions runtime prices baseline news = actions runtime prices candidate news) :
    ZeroDeltas runtime prices baseline candidate news seed := by
  have runs : runConfigBacktest runtime prices baseline news seed =
      runConfigBacktest runtime prices candidate news seed := by
    rw [runConfigBacktest, runConfigBacktest, backtestBars_congr 0 prices same]
  intro delta evaluated
  rw [evaluateProposal, runs] at evaluated
  obtain ⟨metrics, ran, evaluated⟩ := bind_eq_ok.mp evaluated
  obtain ⟨_, again, evaluated⟩ := bind_eq_ok.mp evaluated
  cases Except.ok.inj (ran.symm.trans again)
  cases Except.ok.inj evaluated
  simp only [sub_self, roundHalfEven_zero, and_self]

/-! ## Equal slippage -/

/-- Where both configurations schedule the same fill, their runs have come to equal draws, unless
the price is zero. -/
def DrawnAlike (runtime : Runtime) (prices : List ℚ) (baseline candidate : CognitiveConfig)
    (news : Option (List ℚ)) (seed : ℤ) : Prop :=
  Sized (scheduledFills runtime prices baseline news seed) →
    Sized (scheduledFills runtime prices candidate news seed) →
      ∀ first ∈ schedule (actions runtime prices baseline news),
        ∀ second ∈ schedule (actions runtime prices candidate news),
          first.bar = second.bar → first.direction = second.direction →
            first.opens = second.opens → prices.getD first.bar 0 = 0 ∨
              runtime.draw seed first.position = runtime.draw seed second.position

theorem slipped_inj {price : ℚ} {direction : ℤ} {first second : ℕ} :
    slipped runtime seed price direction first = slipped runtime seed price direction second ↔
      price = 0 ∨ runtime.draw seed first = runtime.draw seed second := by
  have way : (if direction > 0 then 1 else -1 : ℚ) ≠ 0 := by split_ifs <;> norm_num
  have width : (5 / 10000 - 1 / 10000 : ℚ) ≠ 0 := by norm_num
  rw [slipped, slipped, mul_eq_mul_left_iff, or_comm, add_right_inj, mul_right_inj' way,
    Runtime.uniform, Runtime.uniform, add_right_inj, mul_right_inj' width]

/-- The runs see the same slippage for the same fill exactly when the generator has come to equal
draws in both. -/
theorem paired_iff (runtime : Runtime) (prices : List ℚ) (baseline candidate : CognitiveConfig)
    (news : Option (List ℚ)) (seed : ℤ) :
    Paired runtime prices baseline candidate news seed ↔
      DrawnAlike runtime prices baseline candidate news seed := by
  constructor
  · intro paired sized sizedToo first isFirst second isSecond bars directions purposes
    have prices := paired.samePrices _ _ ((runFills_eq ..).trans (if_pos sized))
      ((runFills_eq ..).trans (if_pos sizedToo)) _ (List.mem_map_of_mem isFirst) _
      (List.mem_map_of_mem isSecond) ⟨bars, directions, purposes⟩
    rw [Slot.fill, Slot.fill] at prices
    dsimp only at prices
    rw [← bars, ← directions] at prices
    exact slipped_inj.mp prices
  · intro alike
    refine ⟨zeroDeltas_of_actions, fun signal differ silent =>
      zeroDeltas_of_actions (actions_congr_of_silent differ silent), ?_⟩
    intro fills others ran ranToo fill isFill other isOther same
    rw [runFills_eq] at ran ranToo
    split_ifs at ran with sized
    split_ifs at ranToo with sizedToo
    cases Except.ok.inj ran
    cases Except.ok.inj ranToo
    obtain ⟨first, isFirst, rfl⟩ := List.mem_map.mp isFill
    obtain ⟨second, isSecond, rfl⟩ := List.mem_map.mp isOther
    obtain ⟨bars, directions, purposes⟩ := same
    have drawn := alike sized sizedToo first isFirst second isSecond bars directions purposes
    change first.bar = second.bar at bars
    change first.direction = second.direction at directions
    rw [Slot.fill, Slot.fill]
    dsimp only
    rw [← bars, ← directions]
    exact slipped_inj.mpr drawn

/-! ## A trade that shifts the draws -/

/-- A configuration that asks for more before it buys. -/
def cautiousConfig : CognitiveConfig := { defaultConfig with buyThreshold := 20 / 100 }

/-- The default configuration buys on the first bar, the other one does not, and both open a short
position on the second. -/
theorem not_paired_extraTrade :
    ¬Paired Reference.runtime [100, 100] defaultConfig cautiousConfig (some [1 / 2, -1]) 0 := by
  intro paired
  have third : ⟨1, -1, true, 2⟩ ∈
      schedule (actions Reference.runtime [100, 100] defaultConfig (some [1 / 2, -1])) := by
    decide +kernel
  have first : ⟨1, -1, true, 0⟩ ∈
      schedule (actions Reference.runtime [100, 100] cautiousConfig (some [1 / 2, -1])) := by
    decide +kernel
  have prices := paired.samePrices _ _ ((runFills_eq ..).trans (if_pos (by decide +kernel)))
    ((runFills_eq ..).trans (if_pos (by decide +kernel))) _ (List.mem_map_of_mem third) _
    (List.mem_map_of_mem first) ⟨rfl, rfl, rfl⟩
  rcases slipped_inj.mp prices with free | same
  · exact absurd free (by decide +kernel)
  · exact absurd same (by decide +kernel)

end PairedBacktests

end TradingControl.Cognitive
