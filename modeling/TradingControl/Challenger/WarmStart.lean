import TradingControl.Backtest.Moves
import TradingControl.Challenger.ShadowTrader
import TradingControl.Python.Window

/-!
# Challenger agent

A challenger runs its strategy, and the baseline beside it, on every price of the market stream.
What the shadow trades have earned is stored with every closed trade; a challenger that starts takes
its record over from the store.  A challenger that beats the baseline proposes its promotion once.
-/

namespace TradingControl.Challenger

open Python Backtest

/-- `CHALLENGER_PERF_PNL_CAP`. -/
def challengerPerfPnlCap : ℕ := 1000

/-- `CHALLENGER_MIN_SHADOW_TRADES`. -/
def challengerMinShadowTrades : ℕ := 40

/-- `CHALLENGER_MIN_SHADOW_WIN_RATE`. -/
def challengerMinShadowWinRate : ℚ := 55 / 100

/-! ## Store -/

/-- The last profits of a strategy, no more than the store keeps. -/
structure StoredPnls where
  pnls : List ℚ
  kept : pnls.length ≤ challengerPerfPnlCap

/-- `own_pnls[-CHALLENGER_PERF_PNL_CAP:]`. -/
def StoredPnls.ofList (pnls : List ℚ) : StoredPnls where
  pnls := lastItems challengerPerfPnlCap pnls
  kept := length_lastItems_le challengerPerfPnlCap pnls

/-- The durable record of a strategy. -/
structure PerfRecord where
  pnls : StoredPnls
  baselinePnls : StoredPnls
  proposalEmitted : Bool

/-! ## The agent -/

/-- The engines of the strategy and of the baseline. -/
structure Shadow where
  own : ShadowTradeEngine := {}
  baseline : ShadowTradeEngine := {}

/-- `_strategy`, `_shadow` and `_shadow_proposal_emitted`. -/
structure ChallengerAgent where
  strategyName : String
  shadow : Option Shadow
  proposalEmitted : Bool := false

/-- `_restore_metrics`. -/
def restoreMetrics (pnls : List ℚ) : ShadowMetrics where
  trades := pnls.length
  wins := pnls.countP (0 < ·)
  realizedPnl := pnls.sum
  pnls

variable (sqrt : ℚ → ℚ)

/-- `_build_shadow_engines`. -/
def buildShadowEngines (strategyName : String) : Option Shadow :=
  ((strategies sqrt).lookup strategyName).map fun _ => {}

/-- `ChallengerAgent(...)`. -/
def newChallenger (strategyName : String) : ChallengerAgent where
  strategyName
  shadow := buildShadowEngines sqrt strategyName

/-- `_hydrate_shadow_state`. -/
def ChallengerAgent.hydrateShadowState (agent : ChallengerAgent) (record : Option PerfRecord) :
    ChallengerAgent :=
  match agent.shadow, record with
  | some shadow, some record => { agent with
      shadow := some {
        own := { shadow.own with metrics := restoreMetrics record.pnls.pnls }
        baseline := { shadow.baseline with metrics := restoreMetrics record.baselinePnls.pnls } }
      proposalEmitted := record.proposalEmitted }
  | _, _ => agent

/-- `_persist_shadow_state`. -/
def Shadow.persist (shadow : Shadow) (proposalEmitted : Bool) : PerfRecord where
  pnls := .ofList shadow.own.metrics.pnls
  baselinePnls := .ofList shadow.baseline.metrics.pnls
  proposalEmitted

/-! ## Promotion -/

/-- `_shadow_summary`. -/
structure ShadowSummary where
  shadowTrades : ℕ
  shadowWinRate : ℚ
  shadowPnl : ℚ
  shadowSharpe : ℚ
  baselineShadowTrades : ℕ
  baselineShadowWinRate : ℚ
  baselineShadowPnl : ℚ
  beatsBaselineShadow : Bool
deriving DecidableEq

def Shadow.summary (shadow : Shadow) : ShadowSummary where
  shadowTrades := shadow.own.metrics.trades
  shadowWinRate := roundHalfEven 4 shadow.own.metrics.winRate
  shadowPnl := roundHalfEven 4 shadow.own.metrics.realizedPnl
  shadowSharpe := roundHalfEven 4 (shadow.own.metrics.sharpe sqrt)
  baselineShadowTrades := shadow.baseline.metrics.trades
  baselineShadowWinRate := roundHalfEven 4 shadow.baseline.metrics.winRate
  baselineShadowPnl := roundHalfEven 4 shadow.baseline.metrics.realizedPnl
  beatsBaselineShadow := shadow.baseline.metrics.realizedPnl < shadow.own.metrics.realizedPnl

/-- A criterion of promotion that is not met. -/
inductive PromotionBlocker where
  | needsTrades (missing : ℕ)
  | winRateBelow (winRate : ℚ)
  | pnlNotPositive
  | sharpeNotPositive
  | notBeatingBaseline
deriving DecidableEq

/-- `_promotion_blockers`. -/
def ShadowSummary.promotionBlockers (summary : ShadowSummary) : List PromotionBlocker :=
  (if summary.shadowTrades < challengerMinShadowTrades then
    [.needsTrades (challengerMinShadowTrades - summary.shadowTrades)] else []) ++
  (if summary.shadowWinRate < challengerMinShadowWinRate then
    [.winRateBelow summary.shadowWinRate] else []) ++
  (if summary.shadowPnl ≤ 0 then [.pnlNotPositive] else []) ++
  (if summary.shadowSharpe ≤ 0 then [.sharpeNotPositive] else []) ++
  (if summary.beatsBaselineShadow then [] else [.notBeatingBaseline])

/-- What a proposal of promotion says, but for its identifiers and its text. -/
structure PromotionProposal where
  strategy : String
  shadowEdge : ℚ
  confidence : ℚ
  summary : ShadowSummary
deriving DecidableEq

/-- The proposal that `_maybe_propose_shadow_promotion` makes, if any. -/
def ChallengerAgent.proposal (agent : ChallengerAgent) (shadow : Shadow) :
    Option PromotionProposal :=
  let summary := shadow.summary sqrt
  if agent.proposalEmitted = true ∨ summary.promotionBlockers ≠ [] then none
  else some {
    strategy := agent.strategyName
    shadowEdge := roundHalfEven 4 (summary.shadowPnl - summary.baselineShadowPnl)
    confidence := summary.shadowWinRate
    summary }

/-! ## Events -/

/-- An event of the market stream. -/
inductive MarketEvent where
  /-- The payload does not parse. -/
  | malformed
  | tick (symbol : Option String) (price : Scalar)

/-- Symbol and price, if the engines are to see them. -/
def MarketEvent.price? : MarketEvent → Option (String × ℚ)
  | .malformed => none
  | .tick symbol price =>
      match price.toFloatOrZero, symbol with
      | some price, some symbol => if symbol = "" ∨ price ≤ 0 then none else some (symbol, price)
      | _, _ => none

/-- What an engine does with an event. -/
structure EngineReport where
  action : Option String := none
  closed : Option ShadowTrade := none
  metrics : ShadowMetrics
deriving DecidableEq

/-- What the challenger does with an event. -/
structure TickReport where
  own : EngineReport
  baseline : EngineReport
  proposal : Option PromotionProposal
deriving DecidableEq

def ShadowTradeEngine.report (engine : ShadowTradeEngine) (strategy : Strategy)
    (event : MarketEvent) : EngineReport × ShadowTradeEngine :=
  match event.price? with
  | none => ({ metrics := engine.metrics }, engine)
  | some (symbol, price) =>
      let (closed, next) := engine.observe strategy symbol price
      ({ action := engine.decision strategy symbol price, closed, metrics := next.metrics }, next)

/-- A challenger and the record that the store has of its strategy. -/
structure Running where
  agent : ChallengerAgent
  record : Option PerfRecord

/-- `start` after a construction: a new process takes the record over. -/
def startChallenger (strategyName : String) (record : Option PerfRecord) : Running where
  agent := (newChallenger sqrt strategyName).hydrateShadowState record
  record

namespace Running

variable (running : Running)

/-- `process` of an event of the market stream. -/
def process (event : MarketEvent) : Option TickReport × Running :=
  match running.agent.shadow, (strategies sqrt).lookup running.agent.strategyName with
  | some shadow, some strategy =>
      let (own, ownEngine) := shadow.own.report strategy event
      let (baseline, baselineEngine) := shadow.baseline.report (baselineMomentum sqrt) event
      let shadow : Shadow := { own := ownEngine, baseline := baselineEngine }
      let closedRecord :=
        if own.closed.isSome || baseline.closed.isSome then
          some (shadow.persist running.agent.proposalEmitted)
        else running.record
      let proposal := running.agent.proposal sqrt shadow
      (some { own, baseline, proposal },
        if proposal.isSome then {
          agent := { running.agent with shadow := some shadow, proposalEmitted := true }
          record := some (shadow.persist true) }
        else {
          agent := { running.agent with shadow := some shadow }
          record := closedRecord })
  | _, _ => (none, running)

/-- State after events. -/
def run (events : List MarketEvent) : Running :=
  events.foldl (fun running event => (running.process sqrt event).2) running

def follow : Running → List MarketEvent → List (Option TickReport)
  | _, [] => []
  | running, event :: events =>
      (running.process sqrt event).1 :: follow (running.process sqrt event).2 events

/-- The challenger is stopped, and a new process starts one for the same strategy. -/
def restart : Running := startChallenger sqrt running.agent.strategyName running.record

end Running

end TradingControl.Challenger

/-!
# Warm start

A restarted challenger takes over what its trades have earned, but not the prices it has seen nor
the positions it holds.  Without a price it lets nothing go; after one there is a next price on
which the baseline would have bought, and on which the restarted baseline holds.
-/

namespace TradingControl.Challenger

open Python Backtest

/-! ## Without a price -/

variable {sqrt : ℚ → ℚ} {strategyName : String}

/-- The engines that a record leaves behind. -/
def warm (record : Option PerfRecord) : Shadow where
  own := { metrics := restoreMetrics ((record.map fun record => record.pnls.pnls).getD []) }
  baseline :=
    { metrics := restoreMetrics ((record.map fun record => record.baselinePnls.pnls).getD []) }

theorem startChallenger_known {strategy : Strategy}
    (known : (strategies sqrt).lookup strategyName = some strategy) (record : Option PerfRecord) :
    startChallenger sqrt strategyName record = {
      agent := {
        strategyName
        shadow := some (warm record)
        proposalEmitted := (record.map PerfRecord.proposalEmitted).getD false }
      record } := by
  rw [startChallenger, newChallenger, buildShadowEngines, known]
  cases record <;> rfl

theorem startChallenger_runs {strategy : Strategy}
    (known : (strategies sqrt).lookup strategyName = some strategy) (record : Option PerfRecord) :
    (startChallenger sqrt strategyName record).agent.strategyName = strategyName ∧
      (startChallenger sqrt strategyName record).agent.shadow = some (warm record) := by
  rw [startChallenger_known known]
  exact ⟨rfl, rfl⟩

theorem startChallenger_unknown (unknown : (strategies sqrt).lookup strategyName = none)
    (record : Option PerfRecord) :
    startChallenger sqrt strategyName record =
      { agent := { strategyName, shadow := none }, record } := by
  rw [startChallenger, newChallenger, buildShadowEngines, unknown]
  cases record <;> rfl

theorem restart_startChallenger (record : Option PerfRecord) :
    (startChallenger sqrt strategyName record).restart sqrt =
      startChallenger sqrt strategyName record := by
  cases known : (strategies sqrt).lookup strategyName with
  | none => rw [startChallenger_unknown known, Running.restart, startChallenger_unknown known]
  | some strategy => rw [startChallenger_known known, Running.restart, startChallenger_known known]

/-- What the store keeps of the profits is all that the engines were started with. -/
theorem ofList_stored (record : Option PerfRecord) (field : PerfRecord → StoredPnls) :
    (StoredPnls.ofList ((record.map fun record => (field record).pnls).getD [])).pnls =
      (record.map fun record => (field record).pnls).getD [] := by
  have kept : ((record.map fun record => (field record).pnls).getD []).length ≤
      challengerPerfPnlCap := by
    cases record with
    | none => exact Nat.zero_le _
    | some record => exact (field record).kept
  dsimp only [StoredPnls.ofList]
  exact lastItems_of_length_le kept

theorem warm_persist (record : Option PerfRecord) (emitted : Bool) :
    warm (some ((warm record).persist emitted)) = warm record := by
  have own := ofList_stored record PerfRecord.pnls
  have baseline := ofList_stored record PerfRecord.baselinePnls
  simp only [warm, Shadow.persist, restoreMetrics, Option.map_some, Option.getD_some]
  rw [own, baseline]

theorem report_unpriced {event : MarketEvent} (unpriced : event.price? = none)
    (engine : ShadowTradeEngine) (strategy : Strategy) :
    engine.report strategy event = ({ metrics := engine.metrics }, engine) := by
  rw [ShadowTradeEngine.report, unpriced]

/-- An event without a price may make a challenger propose, and that is stored. -/
theorem process_startChallenger {event : MarketEvent}
    (idle : (strategies sqrt).lookup strategyName = none ∨ event.price? = none)
    (record : Option PerfRecord) :
    ∃ next, ((startChallenger sqrt strategyName record).process sqrt event).2 =
      startChallenger sqrt strategyName next := by
  cases known : (strategies sqrt).lookup strategyName with
  | none =>
      refine ⟨record, ?_⟩
      rw [startChallenger_unknown known]
      rfl
  | some strategy =>
      have unpriced : event.price? = none := by
        rcases idle with unknown | unpriced
        · rw [known] at unknown
          cases unknown
        · exact unpriced
      rw [startChallenger_known known, Running.process]
      simp only [known, report_unpriced unpriced, Option.isSome_none, Bool.or_false]
      split
      · refine ⟨some ((warm record).persist true), ?_⟩
        rw [startChallenger_known known, warm_persist]
        rfl
      · refine ⟨record, ?_⟩
        rw [startChallenger_known known]
        rfl

theorem run_idle (record : Option PerfRecord) {events : List MarketEvent}
    (idle : (strategies sqrt).lookup strategyName = none ∨
      ∀ event ∈ events, event.price? = none) :
    ∃ next, (startChallenger sqrt strategyName record).run sqrt events =
      startChallenger sqrt strategyName next := by
  induction events generalizing record with
  | nil => exact ⟨record, rfl⟩
  | cons event events induction =>
      obtain ⟨next, processed⟩ := process_startChallenger
        (idle.imp_right fun unpriced => unpriced event List.mem_cons_self) record
      rw [Running.run, List.foldl_cons, processed]
      exact induction next
        (idle.imp_right fun unpriced later member => unpriced later (List.mem_cons_of_mem _ member))

/-! ## After a price -/

theorem price?_eq_some {event : MarketEvent} {symbol : String} {price : ℚ}
    (priced : event.price? = some (symbol, price)) : symbol ≠ "" ∧ 0 < price := by
  cases event with
  | malformed => cases priced
  | tick named field =>
      cases read : field.toFloatOrZero with
      | none => simp [MarketEvent.price?, read] at priced
      | some value =>
          cases named with
          | none => simp [MarketEvent.price?, read] at priced
          | some text =>
              simp only [MarketEvent.price?, read] at priced
              split at priced
              · cases priced
              case isFalse usable =>
                cases priced
                obtain ⟨named, positive⟩ := not_or.mp usable
                exact ⟨named, not_le.mp positive⟩

theorem price?_tick {symbol : String} {price : ℚ} (named : symbol ≠ "") (positive : 0 < price) :
    (MarketEvent.tick (some symbol) (.number price)).price? = some (symbol, price) := by
  have truthy : (Scalar.number price).truthy = true := decide_eq_true positive.ne'
  have usable : ¬(symbol = "" ∨ price ≤ 0) := not_or.mpr ⟨named, not_le.mpr positive⟩
  simp only [MarketEvent.price?, Scalar.toFloatOrZero, if_pos truthy, Scalar.toFloat, if_neg usable]

namespace ShadowTradeEngine

variable {engine : ShadowTradeEngine} {strategy : Strategy} {symbol : String} {price : ℚ}

/-- Positions and trades leave the prices alone. -/
theorem history_applyAction (engine : ShadowTradeEngine) (symbol action : String) (price : ℚ) :
    (engine.applyAction symbol action price).2.history = engine.history := by
  rw [applyAction]
  cases target action with
  | none => rfl
  | some direction =>
      dsimp only
      split
      · rfl
      · rw [close]
        dsimp only
        split <;> rfl

theorem history_observe (named : symbol ≠ "") (positive : 0 < price) :
    (engine.observe strategy symbol price).2.history =
      Function.update engine.history symbol (engine.bar symbol price).history := by
  rw [observe, if_neg (not_or.mpr ⟨named, not_le.mpr positive⟩), history_applyAction]
  rfl

/-- The prices of the engine are positive. -/
def Positive (engine : ShadowTradeEngine) : Prop :=
  ∀ symbol, ∀ price ∈ engine.history symbol, 0 < price

theorem bar_history (engine : ShadowTradeEngine) (symbol : String) (price : ℚ) :
    (engine.bar symbol price).history =
      lastItems (historyMaxlen - 1) (engine.history symbol) ++ [price] :=
  lastItems_succ_append _ _ _

theorem Positive.report (prices : engine.Positive) (event : MarketEvent) :
    (engine.report strategy event).2.Positive := by
  rw [ShadowTradeEngine.report]
  split
  · exact prices
  case h_2 symbol price priced =>
    obtain ⟨named, positive⟩ := price?_eq_some priced
    intro other held member
    dsimp only at member
    rw [history_observe named positive] at member
    by_cases same : other = symbol
    · subst same
      rw [Function.update_self, bar_history] at member
      rcases List.mem_append.mp member with earlier | last
      · exact prices other held (List.mem_of_mem_drop earlier)
      · rw [List.mem_singleton.mp last]
        exact positive
    · rw [Function.update_of_ne same] at member
      exact prices other held member

theorem history_report_ne_nil {event : MarketEvent}
    (seen : engine.history symbol ≠ [] ∨ ∃ price, event.price? = some (symbol, price)) :
    (engine.report strategy event).2.history symbol ≠ [] := by
  rw [ShadowTradeEngine.report]
  split
  case h_1 unpriced =>
    rcases seen with earlier | ⟨price, priced⟩
    · exact earlier
    · rw [unpriced] at priced
      cases priced
  case h_2 other price priced =>
    obtain ⟨named, positive⟩ := price?_eq_some priced
    dsimp only
    rw [history_observe named positive]
    by_cases same : symbol = other
    · subst same
      rw [Function.update_self, bar_history]
      exact List.concat_ne_nil _ _
    · rw [Function.update_of_ne same]
      rcases seen with earlier | ⟨held, pricedToo⟩
      · exact earlier
      · rw [priced] at pricedToo
        cases pricedToo
        exact absurd rfl same

theorem decision_first (sqrt : ℚ → ℚ) (unseen : engine.history symbol = []) :
    engine.decision (baselineMomentum sqrt) symbol price = "hold" := by
  have still : (engine.bar symbol price).pct = 0 := by simp [bar, unseen]
  have alone : (engine.bar symbol price).history.length = 1 := by
    rw [bar_history, unseen, lastItems_nil]
    rfl
  rw [decision, baselineMomentum_first sqrt still alone]
  decide

theorem exists_decision_buy (root : SquareRoot) (prices : engine.Positive)
    (seen : engine.history symbol ≠ []) :
    ∃ price, 0 < price ∧
      engine.decision (baselineMomentum root.sqrt) symbol price = "buy" := by
  rcases List.eq_nil_or_concat (engine.history symbol) with none | ⟨rest, prev, split⟩
  · exact absurd none seen
  rw [List.concat_eq_append] at split
  have positivePrev : 0 < prev := prices symbol prev (by rw [split]; simp)
  obtain ⟨price, positive, bought⟩ :=
    exists_price_bought root (lastItems (historyMaxlen - 2) rest) positivePrev
  refine ⟨price, positive, ?_⟩
  have isBar : engine.bar symbol price = {
      index := engine.index + 1
      price
      prevPrice := prev
      pct := (price - prev) / prev * 100
      history := lastItems (historyMaxlen - 2) rest ++ [prev, price] } := by
    have last : (engine.history symbol).getLast? = some prev := by
      rw [split, List.getLast?_concat]
    have recent : (engine.bar symbol price).history =
        lastItems (historyMaxlen - 2) rest ++ [prev, price] := by
      have room : historyMaxlen - 1 = historyMaxlen - 2 + 1 := rfl
      rw [bar_history, split, room, lastItems_succ_append, List.append_assoc]
      rfl
    rw [← recent]
    simp only [bar, last, Option.getD_some, if_pos positivePrev.ne']
  rw [decision, isBar, bought]
  decide

end ShadowTradeEngine

/-- The challenger runs its engines, and those of the baseline have seen these events. -/
structure Trading (strategyName : String) (running : Running) (events : List MarketEvent)
    (shadow : Shadow) : Prop where
  name : running.agent.strategyName = strategyName
  runs : running.agent.shadow = some shadow
  positive : shadow.baseline.Positive
  seen : ∀ event ∈ events, ∀ symbol price, event.price? = some (symbol, price) →
    shadow.baseline.history symbol ≠ []

theorem process_trading {strategy : Strategy} {running : Running} {shadow : Shadow}
    (known : (strategies sqrt).lookup running.agent.strategyName = some strategy)
    (runs : running.agent.shadow = some shadow) (event : MarketEvent) :
    (∃ report, (running.process sqrt event).1 = some report ∧
      report.baseline = (shadow.baseline.report (baselineMomentum sqrt) event).1) ∧
    (running.process sqrt event).2.agent.strategyName = running.agent.strategyName ∧
    (running.process sqrt event).2.agent.shadow = some {
      own := (shadow.own.report strategy event).2
      baseline := (shadow.baseline.report (baselineMomentum sqrt) event).2 } := by
  rw [Running.process]
  simp only [runs, known]
  refine ⟨⟨_, rfl, rfl⟩, ?_, ?_⟩
  · split <;> rfl
  · split <;> rfl

theorem trading_run {strategy : Strategy}
    (known : (strategies sqrt).lookup strategyName = some strategy) (record : Option PerfRecord)
    (events : List MarketEvent) :
    ∃ shadow, Trading strategyName ((startChallenger sqrt strategyName record).run sqrt events)
      events shadow := by
  induction events using List.reverseRecOn with
  | nil =>
      obtain ⟨name, runs⟩ := startChallenger_runs known record
      exact ⟨warm record, name, runs, fun symbol price member => absurd member List.not_mem_nil,
        fun event member => absurd member List.not_mem_nil⟩
  | append_singleton events event induction =>
      obtain ⟨shadow, trading⟩ := induction
      rw [Running.run, List.foldl_concat]
      have stillKnown := known
      rw [← trading.name] at stillKnown
      obtain ⟨-, name, runs⟩ := process_trading stillKnown trading.runs event
      refine ⟨_, name.trans trading.name, runs, trading.positive.report event,
        fun earlier member symbol price priced => ?_⟩
      refine ShadowTradeEngine.history_report_ne_nil ?_
      rcases List.mem_append.mp member with before | last
      · exact Or.inl (trading.seen earlier before symbol price priced)
      · obtain rfl := List.mem_singleton.mp last
        exact Or.inr ⟨price, priced⟩

theorem report_tick {engine : ShadowTradeEngine} {strategy : Strategy} {symbol : String} {price : ℚ}
    (named : symbol ≠ "") (positive : 0 < price) :
    (engine.report strategy (.tick (some symbol) (.number price))).1.action =
      some (engine.decision strategy symbol price) := by
  rw [ShadowTradeEngine.report, price?_tick named positive]

/-! ## Restarts -/

/-- A restart after these events changes nothing that the challenger does from then on. -/
def Invisible (sqrt : ℚ → ℚ) (strategyName : String) (record : Option PerfRecord)
    (before : List MarketEvent) : Prop :=
  ∀ after,
    let running := (startChallenger sqrt strategyName record).run sqrt before
    (running.restart sqrt).follow sqrt after = running.follow sqrt after

/-- A price that has been seen can be told from one that has not. -/
theorem not_invisible (root : SquareRoot) {strategy : Strategy}
    (known : (strategies root.sqrt).lookup strategyName = some strategy)
    (record : Option PerfRecord) {before : List MarketEvent} {event : MarketEvent}
    (member : event ∈ before) {symbol : String} {first : ℚ}
    (priced : event.price? = some (symbol, first)) :
    ¬Invisible root.sqrt strategyName record before := by
  obtain ⟨named, -⟩ := price?_eq_some priced
  obtain ⟨shadow, trading⟩ := trading_run known record before
  obtain ⟨price, positive, bought⟩ := ShadowTradeEngine.exists_decision_buy root
    trading.positive (trading.seen event member symbol first priced)
  intro invisible
  have same := List.head_eq_of_cons_eq (invisible [.tick (some symbol) (.number price)])
  set running := (startChallenger root.sqrt strategyName record).run root.sqrt before
  -- the challenger that goes on buys
  have stillKnown := known
  rw [← trading.name] at stillKnown
  obtain ⟨⟨going, isGoing, goes⟩, -⟩ := process_trading stillKnown trading.runs
    (.tick (some symbol) (.number price))
  -- the restarted one holds
  have restarted : running.restart root.sqrt =
      startChallenger root.sqrt strategyName running.record := by
    rw [Running.restart, trading.name]
  rw [restarted, isGoing] at same
  obtain ⟨name, runs⟩ := startChallenger_runs known running.record
  have knownToo := known
  rw [← name] at knownToo
  obtain ⟨⟨fresh, isFresh, holds⟩, -⟩ := process_trading knownToo runs
    (.tick (some symbol) (.number price))
  rw [isFresh] at same
  have equal : fresh.baseline.action = going.baseline.action :=
    congrArg (fun report => report.baseline.action) (Option.some.inj same)
  rw [holds, goes, report_tick named positive, report_tick named positive, bought,
    ShadowTradeEngine.decision_first root.sqrt rfl] at equal
  exact absurd (Option.some.inj equal) (by decide)

/-- A restart is invisible exactly if no price has come before it, or no strategy is run. -/
theorem invisible_iff (root : SquareRoot) (strategyName : String) (record : Option PerfRecord)
    (before : List MarketEvent) :
    Invisible root.sqrt strategyName record before ↔
      (strategies root.sqrt).lookup strategyName = none ∨
        ∀ event ∈ before, event.price? = none := by
  constructor
  · intro invisible
    cases known : (strategies root.sqrt).lookup strategyName with
    | none => exact Or.inl rfl
    | some strategy =>
        refine Or.inr fun event member => ?_
        cases priced : event.price? with
        | none => rfl
        | some seen => exact absurd invisible (not_invisible root known record member priced)
  · intro idle after
    obtain ⟨next, run⟩ := run_idle record idle
    dsimp only
    rw [run, restart_startChallenger]

/-- After one price the baseline would buy the next one; restarted, it holds. -/
theorem restart_forgets_prices :
    ¬Invisible referenceRoot.sqrt "baseline_momentum" none
      [.tick (some "BTC/USD") (.number 100)] := by
  intro invisible
  have same := invisible [.tick (some "BTC/USD") (.number 110)]
  revert same
  decide +kernel

end TradingControl.Challenger
