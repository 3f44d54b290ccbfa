import TradingControl.Backtest.Engine
import TradingControl.Challenger.WarmStart

/-!
# Live and measured decisions

The backtest, the shadow engine and the signal generator classify the same prices, each by a window
that it keeps itself.  The windows differ in length and in what they hold, so the decisions agree
where the classifications by the windows do.
-/

namespace TradingControl.Challenger

open Python Backtest

/-! ## Signal generator -/

/-- A polled price. -/
structure Tick where
  price : ℚ
  pct : ℚ

/-- `_compute_symbol_payload`. -/
def computeSymbolPayload (price : ℚ) : Option ℚ → Tick
  | none => { price, pct := 0 }
  | some prev =>
      if prev = 0 then { price, pct := 0 }
      else
        let change := roundHalfEven 4 (price - prev)
        { price, pct := roundHalfEven 4 (change / prev * 100) }

/-- What the poller makes of the prices that follow another one. -/
def polledTicks : Option ℚ → List ℚ → List Tick
  | _, [] => []
  | prev, price :: prices => computeSymbolPayload price prev :: polledTicks (some price) prices

/-- The histories of a `SignalGenerator`; a symbol without a tick has none. -/
structure SignalGenerator where
  priceHistory : String → Option (List ℚ) := fun _ => none

/-- `_bootstrap_price_history`, on the closes that it fetches. -/
def bootstrapPriceHistory (closes : List ℚ) : List ℚ :=
  closes.foldl (fun history close =>
    if 0 < close then lastItems historyMaxlen (history ++ [close]) else history) []

namespace SignalGenerator

/-- `process`, up to the classification. -/
def process (sqrt : ℚ → ℚ) (closes : List ℚ) (generator : SignalGenerator) (symbol : String)
    (tick : Tick) : Option Signal × SignalGenerator :=
  if symbol = "" ∨ tick.price ≤ 0 then (none, generator)
  else
    let held := (generator.priceHistory symbol).getD (bootstrapPriceHistory closes)
    let prices := lastItems historyMaxlen (held ++ [tick.price])
    (some (classifySignal tick.pct (computeReturnSigma sqrt prices)),
      { priceHistory := Function.update generator.priceHistory symbol (some prices) })

/-- The classifications of some ticks. -/
def signals (sqrt : ℚ → ℚ) (closes : List ℚ) (symbol : String) :
    SignalGenerator → List Tick → List (Option Signal)
  | _, [] => []
  | generator, tick :: ticks =>
      (generator.process sqrt closes symbol tick).1 ::
        signals sqrt closes symbol (generator.process sqrt closes symbol tick).2 ticks

end SignalGenerator

def ShadowTradeEngine.decisions (strategy : Strategy) (symbol : String) :
    ShadowTradeEngine → List ℚ → List (Option String)
  | _, [] => []
  | engine, price :: prices =>
      (if symbol = "" ∨ price ≤ 0 then none else some (engine.decision strategy symbol price)) ::
        decisions strategy symbol (engine.observe strategy symbol price).2 prices

/-! ## Agreement -/

/-- Direction and tier of a classification. -/
def call (signal : Signal) : MarketDirection × SignalType × SignalStrength :=
  (signal.direction, signal.signalType, signal.strength)

/-- The classification that the baseline makes of a bar. -/
def baselineSignal (sqrt : ℚ → ℚ) (bar : Bar) : Signal :=
  classifySignal bar.pct (computeReturnSigma sqrt bar.history)

/-- From the second price on, the decisions of the backtest are those of the shadow engine, and its
calls are those of the signal generator. -/
structure DecisionsAgree (sqrt : ℚ → ℚ) (closes : List ℚ) (symbol : String) (prices : List ℚ) :
    Prop where
  shadow : (({} : ShadowTradeEngine).decisions (baselineMomentum sqrt) symbol prices).tail =
    (bars prices).map fun bar => some (baselineMomentum sqrt bar)
  live : (({} : SignalGenerator).signals sqrt closes symbol (polledTicks none prices)).tail.map
      (Option.map call) =
    (bars prices).map fun bar => some (call (baselineSignal sqrt bar))

/-! ## Windows -/

/-- The prices that live code keeps. -/
def positives (prices : List ℚ) : List ℚ := prices.filter (0 < ·)

/-- Percent-move between two prices. -/
def move (prev price : ℚ) : ℚ := if prev ≠ 0 then (price - prev) / prev * 100 else 0

/-- The backtest's classification of a price, by the last 65 of all prices. -/
def measuredSignal (sqrt : ℚ → ℚ) (before : List ℚ) (price : ℚ) : Signal :=
  classifySignal (move (before.getLast?.getD 0) price)
    (computeReturnSigma sqrt (lastItems (historyWindow + 1) (before ++ [price])))

/-- The shadow engine's classification of a price, by the last 50 of the positive prices. -/
def shadowSignal (sqrt : ℚ → ℚ) (before : List ℚ) (price : ℚ) : Signal :=
  classifySignal (move ((positives before).getLast?.getD price) price)
    (computeReturnSigma sqrt (lastItems historyMaxlen (positives before ++ [price])))

/-- The generator's classification of a price, by the polled move and the last 50 of the positive
closes and prices. -/
def liveSignal (sqrt : ℚ → ℚ) (closes before : List ℚ) (price : ℚ) : Signal :=
  classifySignal (computeSymbolPayload price before.getLast?).pct
    (computeReturnSigma sqrt
      (lastItems historyMaxlen (positives closes ++ positives before ++ [price])))

/-- The price is positive, and the classifications by the windows agree. -/
structure BarAgrees (sqrt : ℚ → ℚ) (closes before : List ℚ) (price : ℚ) : Prop where
  positive : 0 < price
  shadow : (shadowSignal sqrt before price).action = (measuredSignal sqrt before price).action
  live : call (liveSignal sqrt closes before price) = call (measuredSignal sqrt before price)

/-! ## Runs by history -/

section ByHistory

variable {α β : Type}

/-- Answers that depend on what came before each item. -/
def byHistory (answer : List α → α → β) (before : List α) : List α → List β
  | [] => []
  | item :: items => answer before item :: byHistory answer (before ++ [item]) items

theorem map_byHistory {γ : Type} (change : β → γ) (answer : List α → α → β)
    (before items : List α) :
    (byHistory answer before items).map change =
      byHistory (fun before item => change (answer before item)) before items := by
  induction items generalizing before with
  | nil => rfl
  | cons item items induction => rw [byHistory, List.map_cons, induction, byHistory]

theorem byHistory_inj {first second : List α → α → β} (before items : List α) :
    byHistory first before items = byHistory second before items ↔
      ∀ between item after, items = between ++ item :: after →
        first (before ++ between) item = second (before ++ between) item := by
  induction items generalizing before with
  | nil => simp [byHistory]
  | cons head items induction =>
      rw [byHistory, byHistory, List.cons.injEq, induction]
      constructor
      · rintro ⟨now, later⟩ between item after split
        cases between with
        | nil =>
            rw [List.nil_append, List.cons.injEq] at split
            rw [← split.1, List.append_nil]
            exact now
        | cons first between =>
            rw [List.cons_append, List.cons.injEq] at split
            have next := later between item after split.2
            rwa [List.append_assoc, List.singleton_append, split.1] at next
      · intro all
        refine ⟨by simpa using all [] head items rfl, fun between item after split => ?_⟩
        have next := all (head :: between) item after (by rw [split]; rfl)
        rwa [List.append_assoc, List.singleton_append]

end ByHistory

/-! ## The three runs -/

section Runs

attribute [local irreducible] lastItems

variable {sqrt : ℚ → ℚ} {closes : List ℚ} {symbol : String}

theorem barAt_append {before : List ℚ} (seen : before ≠ []) (price : ℚ) (after : List ℚ) :
    baselineSignal sqrt (barAt (before ++ price :: after) before.length) =
      measuredSignal sqrt before price := by
  have prev : (before ++ price :: after).getD (before.length - 1) 0 = before.getLast?.getD 0 := by
    have nonempty := List.length_pos_of_ne_nil seen
    rw [List.getD_eq_getElem?_getD, List.getElem?_append_left (by omega),
      List.getLast?_eq_getElem?]
  have cur : (before ++ price :: after).getD before.length 0 = price := by
    rw [List.getD_eq_getElem?_getD, List.getElem?_append_right le_rfl, Nat.sub_self]
    rfl
  have window : ((before ++ price :: after).take (before.length + 1)).drop
      (before.length - historyWindow) = lastItems (historyWindow + 1) (before ++ [price]) := by
    rw [List.take_length_add_append, lastItems, List.length_append, List.length_singleton,
      Nat.add_sub_add_right]
    rfl
  rw [baselineSignal, barAt, measuredSignal]
  simp only [prev, cur, window]
  rfl

theorem bars_eq_byHistory {before : List ℚ} (seen : before ≠ []) (prices : List ℚ) :
    (List.range' before.length prices.length).map
        (fun index => baselineSignal sqrt (barAt (before ++ prices) index)) =
      byHistory (measuredSignal sqrt) before prices := by
  induction prices generalizing before with
  | nil => rfl
  | cons price prices induction =>
      rw [List.length_cons, List.range'_succ, List.map_cons, barAt_append seen, byHistory]
      have later := @induction (before ++ [price]) (by simp)
      rw [List.length_append, List.length_singleton, List.append_assoc, List.singleton_append]
        at later
      rw [later]

theorem lower_action (pct : ℚ) (sigma : Option ℚ) :
    lower (classifySignal pct sigma).action = (classifySignal pct sigma).action := by
  have lowered : ∀ (held bought : Prop) [Decidable held] [Decidable bought],
      lower (if held then "hold" else if bought then "buy" else "sell") =
        if held then "hold" else if bought then "buy" else "sell" := by
    intro held bought _ _
    split
    · decide
    · split
      · decide
      · decide
  exact lowered _ _

theorem positives_append (before after : List ℚ) :
    positives (before ++ after) = positives before ++ positives after :=
  List.filter_append _ _

theorem positives_of_pos {price : ℚ} (positive : 0 < price) : positives [price] = [price] :=
  List.filter_eq_self.mpr (by simpa using positive)

theorem positives_of_nonpos {price : ℚ} (nonpositive : price ≤ 0) : positives [price] = [] :=
  List.filter_eq_nil_iff.mpr (by simpa using nonpositive)

theorem getLast?_lastItems {α : Type} {count : ℕ} (room : 0 < count) (items : List α) :
    (lastItems count items).getLast? = items.getLast? := by
  rcases List.eq_nil_or_concat items with rfl | ⟨rest, item, rfl⟩
  · rw [lastItems_nil]
  · rw [List.concat_eq_append, getLast?_lastItems_append room, List.getLast?_concat]

theorem decision_eq {engine : ShadowTradeEngine} {before : List ℚ}
    (kept : engine.history symbol = lastItems historyMaxlen (positives before)) (price : ℚ) :
    engine.decision (baselineMomentum sqrt) symbol price =
      (shadowSignal sqrt before price).action := by
  have prev : ((engine.history symbol).getLast?.getD price) =
      (positives before).getLast?.getD price := by
    rw [kept, getLast?_lastItems (by decide)]
  have window : (engine.bar symbol price).history =
      lastItems historyMaxlen (positives before ++ [price]) := by
    rw [ShadowTradeEngine.bar, kept]
    exact lastItems_append_singleton _ _
  have moved : (engine.bar symbol price).pct =
      move ((positives before).getLast?.getD price) price := by
    rw [← prev]
    rfl
  rw [ShadowTradeEngine.decision, baselineMomentum, lower_action, window, moved, shadowSignal]

/-- An engine's decisions, by the prices it has been given. -/
theorem decisions_eq_byHistory (named : symbol ≠ "") {engine : ShadowTradeEngine}
    {before : List ℚ} (kept : engine.history symbol = lastItems historyMaxlen (positives before))
    (prices : List ℚ) :
    engine.decisions (baselineMomentum sqrt) symbol prices =
      byHistory (fun before price =>
        if price ≤ 0 then none else some (shadowSignal sqrt before price).action)
          before prices := by
  induction prices generalizing engine before with
  | nil => rfl
  | cons price prices induction =>
      rw [ShadowTradeEngine.decisions, byHistory, decision_eq kept]
      by_cases nonpositive : price ≤ 0
      · rw [if_pos (.inr nonpositive), if_pos nonpositive]
        have same : (engine.observe (baselineMomentum sqrt) symbol price).2 = engine := by
          rw [ShadowTradeEngine.observe, if_pos (.inr nonpositive)]
        rw [same]
        refine congrArg _ (induction ?_)
        rw [positives_append, positives_of_nonpos nonpositive, List.append_nil, kept]
      · rw [if_neg (not_or.mpr ⟨named, nonpositive⟩), if_neg nonpositive]
        have positive := not_le.mp nonpositive
        refine congrArg _ (induction ?_)
        rw [ShadowTradeEngine.history_observe named positive, Function.update_self,
          ShadowTradeEngine.bar, kept, positives_append, positives_of_pos positive]
        exact lastItems_append_singleton _ _

/-- The window that fetched closes leave. -/
theorem bootstrapPriceHistory_eq (closes : List ℚ) :
    bootstrapPriceHistory closes = lastItems historyMaxlen (positives closes) := by
  suffices all : ∀ before, closes.foldl (fun history close =>
      if 0 < close then lastItems historyMaxlen (history ++ [close]) else history)
      (lastItems historyMaxlen before) = lastItems historyMaxlen (before ++ positives closes) by
    have start := all []
    rwa [lastItems_nil, List.nil_append] at start
  induction closes with
  | nil => exact fun before => by rw [positives, List.filter_nil, List.append_nil]; rfl
  | cons close closes induction =>
      intro before
      rw [List.foldl_cons]
      by_cases positive : 0 < close
      · rw [if_pos positive, lastItems_append_singleton, induction, positives, positives,
          List.filter_cons_of_pos (by simpa using positive), List.append_assoc,
          List.singleton_append]
      · rw [if_neg positive, induction, positives, positives,
          List.filter_cons_of_neg (by simpa using positive)]

/-- What a generator holds of the prices it has been given, or will start from. -/
def Holds (closes before : List ℚ) (symbol : String) (generator : SignalGenerator) : Prop :=
  (generator.priceHistory symbol).getD (bootstrapPriceHistory closes) =
    lastItems historyMaxlen (positives closes ++ positives before)

theorem price_computeSymbolPayload (price : ℚ) (prev : Option ℚ) :
    (computeSymbolPayload price prev).price = price := by
  cases prev with
  | none => rfl
  | some prev =>
      rw [computeSymbolPayload]
      split <;> rfl

theorem signals_eq_byHistory (named : symbol ≠ "") {generator : SignalGenerator}
    {before : List ℚ} (holds : Holds closes before symbol generator) (prices : List ℚ) :
    generator.signals sqrt closes symbol (polledTicks before.getLast? prices) =
      byHistory (fun before price =>
        if price ≤ 0 then none else some (liveSignal sqrt closes before price)) before prices := by
  induction prices generalizing generator before with
  | nil => rfl
  | cons price prices induction =>
      have last : (before ++ [price]).getLast? = some price := List.getLast?_concat
      rw [polledTicks, SignalGenerator.signals, byHistory, ← last]
      by_cases nonpositive : price ≤ 0
      · have skipped : generator.process sqrt closes symbol
            (computeSymbolPayload price before.getLast?) = (none, generator) := by
          rw [SignalGenerator.process, price_computeSymbolPayload, if_pos (.inr nonpositive)]
        rw [skipped, if_pos nonpositive]
        refine congrArg _ (induction ?_)
        rw [Holds, positives_append, positives_of_nonpos nonpositive, List.append_nil]
        exact holds
      · have positive := not_le.mp nonpositive
        have window : lastItems historyMaxlen
            ((generator.priceHistory symbol).getD (bootstrapPriceHistory closes) ++ [price]) =
              lastItems historyMaxlen (positives closes ++ positives before ++ [price]) := by
          rw [holds, lastItems_append_singleton]
        have classified : generator.process sqrt closes symbol
            (computeSymbolPayload price before.getLast?) =
              (some (liveSignal sqrt closes before price),
                { priceHistory := Function.update generator.priceHistory symbol (some
                    (lastItems historyMaxlen
                      (positives closes ++ positives before ++ [price]))) }) := by
          rw [SignalGenerator.process, price_computeSymbolPayload,
            if_neg (not_or.mpr ⟨named, nonpositive⟩)]
          dsimp only
          rw [window, liveSignal]
        rw [classified, if_neg nonpositive]
        refine congrArg _ (induction ?_)
        rw [Holds]
        dsimp only
        rw [Function.update_self, Option.getD_some, positives_append, positives_of_pos positive,
          List.append_assoc]

theorem signalsOfBars (first : ℚ) (prices : List ℚ) {β : Type} (view : Signal → β) :
    (bars (first :: prices)).map (fun bar => some (view (baselineSignal sqrt bar))) =
      byHistory (fun before price => some (view (measuredSignal sqrt before price))) [first]
        prices := by
  have measured := @bars_eq_byHistory sqrt [first] (List.cons_ne_nil first []) prices
  have viewed := congrArg (List.map fun signal => some (view signal)) measured
  rw [map_byHistory, List.map_map] at viewed
  rw [← viewed, bars, List.map_map]
  rfl

/-- An answer to a positive price that is the same as another. -/
theorem answered_iff {β : Type} {price : ℚ} {first second : β} :
    (if price ≤ 0 then none else some first) = some second ↔ 0 < price ∧ first = second := by
  by_cases nonpositive : price ≤ 0
  · rw [if_pos nonpositive]
    exact iff_of_false (Option.some_ne_none _).symm fun agreed => agreed.1.not_ge nonpositive
  · rw [if_neg nonpositive, Option.some.injEq]
    exact ⟨fun same => ⟨not_le.mp nonpositive, same⟩, fun agreed => agreed.2⟩

/-- The decisions of the shadow engine are those of the backtest where the actions by the two
windows are. -/
theorem shadowAgrees_iff (named : symbol ≠ "") (first : ℚ) (prices : List ℚ) :
    (({} : ShadowTradeEngine).decisions (baselineMomentum sqrt) symbol (first :: prices)).tail =
        (bars (first :: prices)).map (fun bar => some (baselineMomentum sqrt bar)) ↔
      ∀ between price after, prices = between ++ price :: after → 0 < price ∧
        (shadowSignal sqrt ([first] ++ between) price).action =
          (measuredSignal sqrt ([first] ++ between) price).action := by
  have shadow := @decisions_eq_byHistory sqrt symbol named {} [] (lastItems_nil _).symm
    (first :: prices)
  have measured := @signalsOfBars sqrt first prices _ Signal.action
  change (bars (first :: prices)).map (fun bar => some (baselineMomentum sqrt bar)) = _ at measured
  rw [shadow, byHistory, List.tail_cons, measured, List.nil_append, byHistory_inj]
  exact forall₄_congr fun between price after _ => answered_iff

/-- The calls of the generator are those of the backtest where the calls by the two windows are. -/
theorem liveAgrees_iff (named : symbol ≠ "") (first : ℚ) (prices : List ℚ) :
    (({} : SignalGenerator).signals sqrt closes symbol
          (polledTicks none (first :: prices))).tail.map (Option.map call) =
        (bars (first :: prices)).map (fun bar => some (call (baselineSignal sqrt bar))) ↔
      ∀ between price after, prices = between ++ price :: after → 0 < price ∧
        call (liveSignal sqrt closes ([first] ++ between) price) =
          call (measuredSignal sqrt ([first] ++ between) price) := by
  have start : Holds closes [] symbol {} := by
    rw [Holds, positives, positives, List.filter_nil, List.append_nil]
    exact bootstrapPriceHistory_eq closes
  have live := @signals_eq_byHistory sqrt closes symbol named {} [] start (first :: prices)
  have polled : polledTicks ([] : List ℚ).getLast? (first :: prices) =
      polledTicks none (first :: prices) := rfl
  have mapped : ∀ {price : ℚ} {signal : Signal},
      (if price ≤ 0 then none else some signal).map call =
        if price ≤ 0 then none else some (call signal) := by
    intro price signal
    split <;> rfl
  rw [← polled, live, byHistory, List.tail_cons, map_byHistory, signalsOfBars, List.nil_append,
    byHistory_inj]
  refine forall₄_congr fun between price after _ => ?_
  rw [mapped]
  exact answered_iff

/-- The decisions agree on a series exactly where, at every price after the first, the price is
positive and the classifications by the windows agree. -/
theorem decisionsAgree_iff (sqrt : ℚ → ℚ) (closes : List ℚ) (symbol : String)
    (named : symbol ≠ "") (prices : List ℚ) :
    DecisionsAgree sqrt closes symbol prices ↔
      ∀ before price after, prices = before ++ price :: after → before ≠ [] →
        BarAgrees sqrt closes before price := by
  cases prices with
  | nil =>
      refine iff_of_true ⟨rfl, rfl⟩ fun before price after split => ?_
      simp at split
  | cons first prices =>
      constructor
      · rintro ⟨shadow, live⟩ before price after split seen
        rcases before with _ | ⟨head, between⟩
        · exact absurd rfl seen
        · rw [List.cons_append, List.cons.injEq] at split
          obtain ⟨rfl, split⟩ := split
          have decided := (shadowAgrees_iff named first prices).mp shadow between price after split
          have called := (liveAgrees_iff named first prices).mp live between price after split
          exact ⟨decided.1, decided.2, called.2⟩
      · intro all
        have each : ∀ between price after, prices = between ++ price :: after →
            BarAgrees sqrt closes ([first] ++ between) price :=
          fun between price after split =>
            all (first :: between) price after (by rw [split]; rfl) (List.cons_ne_nil _ _)
        refine ⟨(shadowAgrees_iff named first prices).mpr fun between price after split => ?_,
          (liveAgrees_iff named first prices).mpr fun between price after split => ?_⟩
        · have agrees := each between price after split
          exact ⟨agrees.positive, agrees.shadow⟩
        · have agrees := each between price after split
          exact ⟨agrees.positive, agrees.live⟩

end Runs

/-- A rise of two percent after one price. -/
theorem decisionsAgree_rise : DecisionsAgree Reference.sqrt [] "BTC/USD" [100, 102] := by
  refine (decisionsAgree_iff Reference.sqrt [] "BTC/USD" (by decide) [100, 102]).mpr ?_
  intro before price after split seen
  obtain ⟨rfl, rfl⟩ : before = [100] ∧ price = 102 := by
    rcases before with _ | ⟨first, _ | ⟨second, rest⟩⟩
    · exact absurd rfl seen
    · simp only [List.cons_append, List.nil_append, List.cons.injEq] at split
      exact ⟨by rw [← split.1], split.2.1.symm⟩
    · have sizes := congrArg List.length split
      simp at sizes
  exact ⟨by norm_num, by decide +kernel, by decide +kernel⟩

/-- Swings that only the longer window remembers, after a first price. -/
def swings : List ℚ := [110, 100, 110, 100, 110, 100, 110, 100, 110] ++ List.replicate 50 100

/-- After the swings a rise of one percent is nothing to the backtest and much to the shadow
engine. -/
theorem not_decisionsAgree_swings :
    ¬∀ prices, DecisionsAgree Reference.sqrt [] "BTC/USD" prices := by
  intro all
  have agrees := (shadowAgrees_iff (by decide) 100 (swings ++ [101])).mp
    (all (100 :: (swings ++ [101]))).shadow swings 101 [] rfl
  exact absurd agrees.2 (by decide +kernel)

end TradingControl.Challenger
