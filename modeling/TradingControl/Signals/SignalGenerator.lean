import TradingControl.Backtest.Strategies
import TradingControl.Effects.History
import TradingControl.Execution.RiskFilters
import TradingControl.Python.Window

/-!
# Signal generator

Every tick of a symbol goes into the histories its indicators are computed from, but a signal goes
out only for a move worth trading, or once in so many ticks of the symbol.
-/

namespace TradingControl.Signals

open Python Effects Backtest RiskFilters

/-! ## Ticks -/

/-- What a tick says. -/
structure Tick where
  symbol : String
  price : ℚ
  pct : ℚ
deriving DecidableEq

/-- The payload of an event of `market_events`. -/
def payloadOf (runtime : Runtime) (depth : ℕ) (data : Dict String Value) :
    Except Raised (Dict String Value) :=
  match data.lookup "payload" with
  | some (.str raw) => do
      match ← Json.loads runtime depth raw with
      | .dict payload => return payload
      | _ => .error .attributeError
  | some (.dict payload) => .ok payload
  | _ => .ok data

/-- `process` up to its first check; no tick where it returns there. -/
def parseTick (runtime : Runtime) (depth : ℕ) (data : Dict String Value) :
    Except Raised (Option Tick) := do
  let payload ← payloadOf runtime depth data
  let price ← runtime.toFloat ((payload.lookup "price").getD (.int 0))
  let pct ← runtime.toFloat ((payload.lookup "pct").getD (.int 0))
  match payload.lookup "symbol" with
  | some (.str symbol) =>
      return if symbol = "" ∨ price ≤ 0 then none else some ⟨symbol, price, pct⟩
  | _ => return none

/-! ## Indicators -/

/-- `REGIME_ATR_PERIOD`. -/
def regimeAtrPeriod : ℕ := 14

/-- `REGIME_ATR_AVG_PERIOD`. -/
def regimeAtrAvgPeriod : ℕ := 20

/-- `maxlen` of `_price_history`. -/
def priceHistoryLength : ℕ := 50

/-- `maxlen` of `_atr_history`. -/
def atrHistoryLength : ℕ := 25

/-- `compute_atr_from_prices`. -/
def computeAtrFromPrices (prices : List ℚ) (period : ℕ) : Option ℚ :=
  if prices.length < period + 1 then none
  else some (roundHalfEven 8 ((lastItems period ((moves prices).map (|·|))).sum / period))

/-- `atr_regime_ratio`. -/
def atrRegimeRatio (atr : Option ℚ) (history : List ℚ) : Option ℚ :=
  match atr with
  | none => none
  | some atr =>
      if history.length < regimeAtrAvgPeriod then none
      else
        let avgAtr := (lastItems regimeAtrAvgPeriod history).sum / regimeAtrAvgPeriod
        if 0 < avgAtr then some (roundHalfEven 4 (atr / avgAtr)) else none

/-! ## Generator -/

/-- The state of a `SignalGenerator`. -/
structure Generator where
  priceHistory : Dict String (List ℚ) := []
  atrHistory : Dict String (List ℚ) := []
  ticksSinceSignal : Dict String ℕ := []

/-- What a signal is made of. -/
structure SignalPayload where
  tick : Tick
  signal : Signal
  rsi : Option ℚ
  atr : Option ℚ
  atrRegimeRatio : Option ℚ
deriving DecidableEq

/-- `_should_publish`. -/
def shouldPublish (signalEveryNTicks : ℤ) (ticksSinceSignal : Dict String ℕ) (symbol : String)
    (strength : SignalStrength) : Bool × Dict String ℕ :=
  let everyN := (max 1 signalEveryNTicks).toNat
  if strength ≠ .low then (true, Dict.set symbol 0 ticksSinceSignal)
  else
    let count := (ticksSinceSignal.lookup symbol).getD everyN + 1
    if everyN ≤ count then (true, Dict.set symbol 0 ticksSinceSignal)
    else (false, Dict.set symbol count ticksSinceSignal)

/-- The bars of `_bootstrap_price_history` that go into the history. -/
def bootstrap (bars : List ℚ) : List ℚ := lastItems priceHistoryLength (bars.filter (0 < ·))

namespace Generator

/-- The price history with the tick. -/
def prices (generator : Generator) (bars : List ℚ) (tick : Tick) : List ℚ :=
  let history := (generator.priceHistory.lookup tick.symbol).getD (bootstrap bars)
  lastItems priceHistoryLength (history ++ [tick.price])

/-- The history of true ranges with the one of the tick. -/
def ranges (generator : Generator) (tick : Tick) (atr : Option ℚ) : List ℚ :=
  let history := (generator.atrHistory.lookup tick.symbol).getD []
  match atr with
  | some atr => lastItems atrHistoryLength (history ++ [atr])
  | none => history

/-- The signal that `process` makes of a tick. -/
def payload (sqrt : ℚ → ℚ) (generator : Generator) (bars : List ℚ) (tick : Tick) : SignalPayload :=
  let prices := generator.prices bars tick
  let atr := computeAtrFromPrices prices regimeAtrPeriod
  { tick
    signal := classifySignal tick.pct (computeReturnSigma sqrt prices)
    rsi := computeRsi prices regimeAtrPeriod
    atr
    atrRegimeRatio := atrRegimeRatio atr (generator.ranges tick atr) }

/-- `process` from the tick to the throttle: the signal, whether it goes out, and the state. -/
def process (sqrt : ℚ → ℚ) (signalEveryNTicks : ℤ) (generator : Generator) (bars : List ℚ)
    (tick : Tick) : SignalPayload × Bool × Generator :=
  let prices := generator.prices bars tick
  let payload := generator.payload sqrt bars tick
  let (due, ticksSinceSignal) := shouldPublish signalEveryNTicks generator.ticksSinceSignal
    tick.symbol payload.signal.strength
  (payload, due,
    { priceHistory := Dict.set tick.symbol prices generator.priceHistory
      atrHistory := Dict.set tick.symbol (generator.ranges tick payload.atr) generator.atrHistory
      ticksSinceSignal })

end Generator

/-! ## Runs -/

/-- A tick with the bars there were to start from, its signal, and whether the signal went out. -/
structure Processed where
  bars : List ℚ
  tick : Tick
  payload : SignalPayload
  due : Bool

/-- The surroundings of the generator: `math.sqrt`, `settings.SIGNAL_EVERY_N_TICKS` and what reads
the texts. -/
structure Settings where
  runtime : Runtime
  depth : ℕ
  sqrt : ℚ → ℚ
  signalEveryNTicks : ℤ := 10

/-- The generator and the ticks it has processed. -/
structure Feed where
  generator : Generator := {}
  processed : List Processed := []

namespace Feed

def process (sqrt : ℚ → ℚ) (signalEveryNTicks : ℤ) (feed : Feed) (bars : List ℚ) (tick : Tick) :
    Feed :=
  let (payload, due, generator) := feed.generator.process sqrt signalEveryNTicks bars tick
  { generator, processed := feed.processed ++ [⟨bars, tick, payload, due⟩] }

/-- An event of the stream; one that raises or is no tick leaves the generator as it is. -/
def step (settings : Settings) (feed : Feed) (event : List ℚ × Dict String Value) : Feed :=
  match parseTick settings.runtime settings.depth event.2 with
  | .ok (some tick) => feed.process settings.sqrt settings.signalEveryNTicks event.1 tick
  | _ => feed

/-- The events of any symbols in any order, each with the bars there would be to start from. -/
def run (settings : Settings) (events : List (List ℚ × Dict String Value)) : Feed :=
  events.foldl (step settings) {}

/-- What every tick keeps holds after every run. -/
theorem run_induction (settings : Settings) {invariant : Feed → Prop} (start : invariant {})
    (keeps : ∀ feed bars tick, invariant feed →
      invariant (feed.process settings.sqrt settings.signalEveryNTicks bars tick))
    (events : List (List ℚ × Dict String Value)) : invariant (run settings events) := by
  induction events using List.reverseRecOn with
  | nil => exact start
  | append_singleton events event induction =>
      rw [run, List.foldl_concat, step]
      split
      · exact keeps _ _ _ induction
      · exact induction

end Feed

variable {sqrt : ℚ → ℚ} {signalEveryNTicks : ℤ} {feed : Feed} {processed : List Processed}
  {symbol : String}

theorem Feed.process_eq (sqrt : ℚ → ℚ) (signalEveryNTicks : ℤ) (feed : Feed) (bars : List ℚ)
    (tick : Tick) :
    let payload := feed.generator.payload sqrt bars tick
    let decided := shouldPublish signalEveryNTicks feed.generator.ticksSinceSignal tick.symbol
      payload.signal.strength
    feed.process sqrt signalEveryNTicks bars tick =
      { generator :=
          { priceHistory :=
              Dict.set tick.symbol (feed.generator.prices bars tick) feed.generator.priceHistory
            atrHistory := Dict.set tick.symbol (feed.generator.ranges tick payload.atr)
              feed.generator.atrHistory
            ticksSinceSignal := decided.2 }
        processed := feed.processed ++ [⟨bars, tick, payload, decided.1⟩] } := by
  simp only [Feed.process, Generator.process]

/-! ## Throttle -/

/-- How many ticks of a symbol have gone by without a signal since the last one. -/
def quietSince (symbol : String) (processed : List Processed) : ℕ :=
  processed.foldl (fun count entry =>
    if entry.tick.symbol = symbol then if entry.due then 0 else count + 1 else count) 0

/-- How many ticks it takes for a signal without a move. -/
def everyN (signalEveryNTicks : ℤ) : ℕ := (max 1 signalEveryNTicks).toNat

/-- A signal goes out for a move worth trading, for the first tick of its symbol, and for one that
so many others of the symbol have gone by before. -/
def Throttled (signalEveryNTicks : ℤ) (before : List Processed) (entry : Processed) : Prop :=
  entry.due = true ↔ entry.payload.signal.strength ≠ .low ∨
    (∀ earlier ∈ before, earlier.tick.symbol ≠ entry.tick.symbol) ∨
      everyN signalEveryNTicks ≤ quietSince entry.tick.symbol before + 1

theorem everyN_pos (signalEveryNTicks : ℤ) : 0 < everyN signalEveryNTicks := by
  rw [everyN]
  omega

theorem quietSince_concat (symbol : String) (processed : List Processed) (entry : Processed) :
    quietSince symbol (processed ++ [entry]) =
      if entry.tick.symbol = symbol then if entry.due then 0 else quietSince symbol processed + 1
      else quietSince symbol processed := by
  rw [quietSince, List.foldl_concat]
  rfl

/-- The counter of a symbol counts, once it had a tick. -/
def Counts (counter : Dict String ℕ) (processed : List Processed) : Prop :=
  ∀ symbol, counter.lookup symbol =
    if ∀ entry ∈ processed, entry.tick.symbol ≠ symbol then none
    else some (quietSince symbol processed)

/-- What `_should_publish` decides, and the count it leaves. -/
theorem shouldPublish_spec (signalEveryNTicks : ℤ) (counter : Dict String ℕ) (symbol : String)
    (strength : SignalStrength) :
    let (due, later) := shouldPublish signalEveryNTicks counter symbol strength
    (due = true ↔ strength ≠ .low ∨ counter.lookup symbol = none ∨
        ∃ count, counter.lookup symbol = some count ∧ everyN signalEveryNTicks ≤ count + 1) ∧
      later = Dict.set symbol
        (if due then 0 else (counter.lookup symbol).getD (everyN signalEveryNTicks) + 1) counter := by
  rw [shouldPublish]
  by_cases low : strength = .low
  · rw [if_neg (by simpa using low)]
    have seeded : (max 1 signalEveryNTicks).toNat ≤
        (counter.lookup symbol).getD (max 1 signalEveryNTicks).toNat + 1 ↔
          counter.lookup symbol = none ∨
            ∃ count, counter.lookup symbol = some count ∧ everyN signalEveryNTicks ≤ count + 1 := by
      cases counter.lookup symbol with
      | none => simp
      | some count => simp [everyN]
    dsimp only
    split
    case isTrue enough => exact ⟨by simpa [low] using seeded.mp enough, rfl⟩
    case isFalse few => exact ⟨by simpa [low] using fun due => few (seeded.mpr due), rfl⟩
  · rw [if_pos low]
    exact ⟨by simp [low], rfl⟩

/-- The throttle has kept to its rule, and no symbol has been quiet for long. -/
structure Rationed (signalEveryNTicks : ℤ) (feed : Feed) : Prop where
  throttled : Justified (Throttled signalEveryNTicks) feed.processed
  counts : Counts feed.generator.ticksSinceSignal feed.processed
  quiet : ∀ symbol, quietSince symbol feed.processed < everyN signalEveryNTicks

theorem Counts.none_iff {counter : Dict String ℕ} (counts : Counts counter processed) :
    counter.lookup symbol = none ↔ ∀ entry ∈ processed, entry.tick.symbol ≠ symbol := by
  rw [counts symbol]
  split
  case isTrue first => exact ⟨fun _ => first, fun _ => rfl⟩
  case isFalse seen => exact ⟨fun held => (Option.some_ne_none _ held).elim, fun first => (seen first).elim⟩

theorem Counts.some_iff {counter : Dict String ℕ} (counts : Counts counter processed) {count : ℕ} :
    counter.lookup symbol = some count ↔
      (¬∀ entry ∈ processed, entry.tick.symbol ≠ symbol) ∧ count = quietSince symbol processed := by
  rw [counts symbol]
  split
  case isTrue first => exact ⟨fun held => (Option.some_ne_none _ held.symm).elim, fun seen => (seen.1 first).elim⟩
  case isFalse seen =>
    rw [Option.some.injEq]
    exact ⟨fun same => ⟨seen, same.symm⟩, fun same => same.2.symm⟩

/-- One more tick of a symbol is counted. -/
theorem Counts.concat {counter : Dict String ℕ} (counts : Counts counter processed)
    (entry : Processed) {next : ℕ}
    (quiet : next = quietSince entry.tick.symbol (processed ++ [entry])) :
    Counts (Dict.set entry.tick.symbol next counter) (processed ++ [entry]) := by
  intro symbol
  rw [Dict.lookup_set]
  by_cases same : symbol = entry.tick.symbol
  · subst same
    rw [if_pos rfl, if_neg (by simp), quiet]
  · have others : (∀ other ∈ processed ++ [entry], other.tick.symbol ≠ symbol) ↔
        ∀ other ∈ processed, other.tick.symbol ≠ symbol := by
      rw [List.forall_mem_append, List.forall_mem_singleton]
      exact and_iff_left (Ne.symm same)
    rw [if_neg same, counts symbol, quietSince_concat, if_neg (Ne.symm same)]
    exact if_congr others.symm rfl rfl

theorem Rationed.process (rationed : Rationed signalEveryNTicks feed) (bars : List ℚ)
    (tick : Tick) : Rationed signalEveryNTicks (feed.process sqrt signalEveryNTicks bars tick) := by
  obtain ⟨throttled, counts, quiet⟩ := rationed
  rw [Feed.process_eq]
  generalize feed.generator.payload sqrt bars tick = payload
  have spec := shouldPublish_spec signalEveryNTicks feed.generator.ticksSinceSignal tick.symbol
    payload.signal.strength
  generalize shouldPublish signalEveryNTicks feed.generator.ticksSinceSignal tick.symbol
    payload.signal.strength = decided at spec
  obtain ⟨due, later⟩ := decided
  obtain ⟨decides, rfl⟩ := spec
  -- what the counter says is what the ticks before say
  have decided : Throttled signalEveryNTicks feed.processed ⟨bars, tick, payload, due⟩ := by
    refine decides.trans (or_congr_right ?_)
    rw [counts.none_iff]
    by_cases first : ∀ entry ∈ feed.processed, entry.tick.symbol ≠ tick.symbol
    · exact iff_of_true (.inl first) (.inl first)
    · refine or_congr_right ?_
      constructor
      · rintro ⟨count, held, enough⟩
        rw [(counts.some_iff.mp held).2] at enough
        exact enough
      · intro enough
        exact ⟨_, counts.some_iff.mpr ⟨first, rfl⟩, enough⟩
  refine ⟨throttled.concat decided, counts.concat ⟨bars, tick, payload, due⟩ ?_, fun symbol => ?_⟩
  · rw [quietSince_concat, if_pos rfl]
    cases due with
    | true => rfl
    | false =>
        have held : feed.generator.ticksSinceSignal.lookup tick.symbol ≠ none := fun first =>
          Bool.false_ne_true (decides.mpr (.inr (.inl first)))
        obtain ⟨count, found⟩ := Option.ne_none_iff_exists'.mp held
        rw [found, (counts.some_iff.mp found).2]
        rfl
  · rw [quietSince_concat]
    dsimp only
    split
    case isTrue same =>
      subst same
      cases due with
      | true => exact everyN_pos signalEveryNTicks
      | false =>
          refine Nat.lt_of_not_le fun enough => ?_
          exact Bool.false_ne_true (decided.mpr (.inr (.inr enough)))
    case isFalse => exact quiet symbol

/-- The ticks of a symbol. -/
def ticksOf (symbol : String) (processed : List Processed) : List Processed :=
  processed.filter (·.tick.symbol = symbol)

/-- The prices the symbol started from and has had since. -/
def pricesOf (symbol : String) (processed : List Processed) : List ℚ :=
  (((ticksOf symbol processed).head?.map Processed.bars).getD []).filter (0 < ·) ++
    (ticksOf symbol processed).map (·.tick.price)

/-- The true ranges that the symbol has had. -/
def rangesOf (symbol : String) (processed : List Processed) : List ℚ :=
  (ticksOf symbol processed).filterMap (·.payload.atr)

/-- A signal comes from the last prices and the last ranges of its symbol alone. -/
def Computed (sqrt : ℚ → ℚ) (before : List Processed) (entry : Processed) : Prop :=
  let symbol := entry.tick.symbol
  let prices := lastItems priceHistoryLength (pricesOf symbol (before ++ [entry]))
  entry.payload =
    { tick := entry.tick
      signal := classifySignal entry.tick.pct (computeReturnSigma sqrt prices)
      rsi := computeRsi prices regimeAtrPeriod
      atr := computeAtrFromPrices prices regimeAtrPeriod
      atrRegimeRatio := atrRegimeRatio (computeAtrFromPrices prices regimeAtrPeriod)
        (lastItems atrHistoryLength (rangesOf symbol (before ++ [entry]))) }

theorem ticksOf_concat (symbol : String) (processed : List Processed) (entry : Processed) :
    ticksOf symbol (processed ++ [entry]) =
      ticksOf symbol processed ++ if entry.tick.symbol = symbol then [entry] else [] := by
  rw [ticksOf, List.filter_append, List.filter_singleton]
  by_cases same : entry.tick.symbol = symbol <;> simp [ticksOf, same]

theorem pricesOf_concat (processed : List Processed) (entry : Processed) :
    pricesOf entry.tick.symbol (processed ++ [entry]) =
      (if ticksOf entry.tick.symbol processed = [] then entry.bars.filter (0 < ·)
        else pricesOf entry.tick.symbol processed) ++ [entry.tick.price] := by
  rw [pricesOf, ticksOf_concat, if_pos rfl]
  split
  case isTrue first => simp [first]
  case isFalse seen =>
    rw [List.head?_append_of_ne_nil _ seen, List.map_append, ← List.append_assoc]
    rfl

theorem rangesOf_concat (processed : List Processed) (entry : Processed) :
    rangesOf entry.tick.symbol (processed ++ [entry]) =
      rangesOf entry.tick.symbol processed ++ entry.payload.atr.toList := by
  rw [rangesOf, ticksOf_concat, if_pos rfl, List.filterMap_append]
  cases atr : entry.payload.atr <;> simp [rangesOf, atr]

theorem other_concat (processed : List Processed) (entry : Processed)
    (other : entry.tick.symbol ≠ symbol) :
    ticksOf symbol (processed ++ [entry]) = ticksOf symbol processed ∧
      pricesOf symbol (processed ++ [entry]) = pricesOf symbol processed ∧
        rangesOf symbol (processed ++ [entry]) = rangesOf symbol processed := by
  have same : ticksOf symbol (processed ++ [entry]) = ticksOf symbol processed := by
    rw [ticksOf_concat, if_neg other, List.append_nil]
  exact ⟨same, by rw [pricesOf, same, pricesOf], by rw [rangesOf, same, rangesOf]⟩

/-- The histories are the ends of what the symbols have had. -/
structure Tracked (sqrt : ℚ → ℚ) (feed : Feed) : Prop where
  computed : Justified (Computed sqrt) feed.processed
  prices : ∀ symbol, feed.generator.priceHistory.lookup symbol =
    if ticksOf symbol feed.processed = [] then none
    else some (lastItems priceHistoryLength (pricesOf symbol feed.processed))
  ranges : ∀ symbol, (feed.generator.atrHistory.lookup symbol).getD [] =
    lastItems atrHistoryLength (rangesOf symbol feed.processed)

namespace Tracked

/-- The history with the tick is the end of the prices with it. -/
theorem prices_eq (tracked : Tracked sqrt feed) (bars : List ℚ) (tick : Tick)
    (payload : SignalPayload) (due : Bool) :
    feed.generator.prices bars tick = lastItems priceHistoryLength
      (pricesOf tick.symbol (feed.processed ++ [⟨bars, tick, payload, due⟩])) := by
  rw [Generator.prices, tracked.prices tick.symbol,
    pricesOf_concat feed.processed ⟨bars, tick, payload, due⟩]
  split
  · exact lastItems_append_singleton _ _
  · exact lastItems_append_singleton _ _

theorem ranges_eq (tracked : Tracked sqrt feed) (bars : List ℚ) (tick : Tick)
    (payload : SignalPayload) (due : Bool) :
    feed.generator.ranges tick payload.atr = lastItems atrHistoryLength
      (rangesOf tick.symbol (feed.processed ++ [⟨bars, tick, payload, due⟩])) := by
  unfold Generator.ranges
  rw [tracked.ranges tick.symbol, rangesOf_concat feed.processed ⟨bars, tick, payload, due⟩]
  cases payload.atr with
  | none => simp
  | some atr => exact lastItems_append_singleton _ _

theorem computes (tracked : Tracked sqrt feed) (bars : List ℚ) (tick : Tick) (due : Bool) :
    Computed sqrt feed.processed ⟨bars, tick, feed.generator.payload sqrt bars tick, due⟩ := by
  have prices := tracked.prices_eq bars tick (feed.generator.payload sqrt bars tick) due
  have ranges := tracked.ranges_eq bars tick (feed.generator.payload sqrt bars tick) due
  rw [Computed]
  dsimp only
  rw [← prices, ← ranges]
  rfl

theorem process (tracked : Tracked sqrt feed) (bars : List ℚ) (tick : Tick) :
    Tracked sqrt (feed.process sqrt signalEveryNTicks bars tick) := by
  rw [Feed.process_eq]
  have computed := tracked.computes bars tick
  generalize feed.generator.payload sqrt bars tick = payload at computed
  generalize shouldPublish signalEveryNTicks feed.generator.ticksSinceSignal tick.symbol
    payload.signal.strength = decided
  obtain ⟨due, ticksSinceSignal⟩ := decided
  refine ⟨tracked.computed.concat (computed due), fun symbol => ?_, fun symbol => ?_⟩
  · rw [Dict.lookup_set]
    by_cases same : symbol = tick.symbol
    · subst same
      have some' : ticksOf tick.symbol (feed.processed ++ [⟨bars, tick, payload, due⟩]) ≠ [] := by
        rw [ticksOf_concat]
        simp
      rw [if_pos rfl, if_neg some', tracked.prices_eq]
    · obtain ⟨ticks, prices, -⟩ := other_concat feed.processed
        ⟨bars, tick, payload, due⟩ (Ne.symm same)
      rw [if_neg same, ticks, prices]
      exact tracked.prices symbol
  · rw [Dict.lookup_set]
    by_cases same : symbol = tick.symbol
    · subst same
      rw [if_pos rfl, tracked.ranges_eq bars tick payload due]
      rfl
    · obtain ⟨-, -, ranges⟩ := other_concat feed.processed
        ⟨bars, tick, payload, due⟩ (Ne.symm same)
      rw [if_neg same, ranges]
      exact tracked.ranges symbol

end Tracked

/-- In every run of ticks of any symbols, the signal of a tick comes from the last prices and ranges
of its symbol alone. -/
theorem signals_computed (settings : Settings) (events : List (List ℚ × Dict String Value)) :
    Justified (Computed settings.sqrt) (Feed.run settings events).processed := by
  have start : Tracked settings.sqrt {} := ⟨justified_nil, fun _ => rfl, fun _ => rfl⟩
  exact (Feed.run_induction settings start
    (fun _ bars tick tracked => tracked.process bars tick) events).computed

end TradingControl.Signals
