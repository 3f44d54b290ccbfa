import Mathlib.Tactic.NormNum
import TradingControl.Backtest.Engine

/-!
# Lots of a backtest

Every lot is opened by one fill and closed by the next, and the cash has gained what the closed lots
realized, less what the open one cost.
-/

namespace TradingControl.Backtest

open Python

/-! ## Lots -/

/-- A lot from the fill that opened it to the one that closed it. -/
structure Lot where
  /-- `1` is long and `-1` short. -/
  direction : ℤ
  qty : ℚ
  entryPrice : ℚ
  exitPrice : ℚ
  openBar : ℕ
  closeBar : ℕ

namespace Lot

def fills (lot : Lot) : List Fill :=
  [⟨lot.direction * lot.qty, lot.entryPrice, lot.openBar⟩,
    ⟨-(lot.direction * lot.qty), lot.exitPrice, lot.closeBar⟩]

def pnl (lot : Lot) : ℚ := lot.direction * lot.qty * (lot.exitPrice - lot.entryPrice)

def trade (config : BacktestConfig) (lot : Lot) : Learning.TradeData where
  symbol := some config.symbol
  side := some (if 0 < lot.direction then "sell" else "buy")
  action := some (if 0 < lot.direction then "buy" else "sell")
  entryPrice := some lot.entryPrice
  exitPrice := some lot.exitPrice
  pnl := some lot.pnl
  pnlPercent :=
    some (lot.direction * (lot.exitPrice - lot.entryPrice) / lot.entryPrice * 100)
  holdingPeriodMinutes := some (((lot.closeBar : ℚ) - lot.openBar) * config.barMinutes)
  confidence := some defaultConfidence

def scored (config : BacktestConfig) (lot : Lot) : Learning.ScoredTrade :=
  Learning.scoreTrade (lot.trade config)

end Lot

def totalPnl (evaluations : List Learning.ScoredTrade) : ℚ :=
  (evaluations.map fun scored => scored.pnl.getD 0).sum

variable {config : BacktestConfig}

theorem totalPnl_scored (lots : List Lot) :
    totalPnl (lots.map (Lot.scored config)) = (lots.map Lot.pnl).sum := by
  rw [totalPnl, List.map_map]
  rfl

namespace Ledger

def openFill (ledger : Ledger) : List Fill :=
  if ledger.openDir = 0 then [] else [⟨ledger.positionQty, ledger.openPrice, ledger.openBar⟩]

/-- A ledger after so many decisions, with the lots that it has closed. -/
structure Sound (config : BacktestConfig) (lots : List Lot) (decisions : ℕ) (ledger : Ledger) :
    Prop where
  evaluations : ledger.evaluations = lots.map (Lot.scored config)
  fills : ledger.fills = lots.flatMap Lot.fills ++ ledger.openFill
  cash : ledger.cash =
    config.startingEquity + (lots.map Lot.pnl).sum - ledger.positionQty * ledger.openPrice
  flat : ledger.openDir = 0 → ledger.positionQty = 0
  opened : ledger.openDir ≠ 0 → ledger.positionQty = ledger.openDir * ledger.openQty ∧
    0 < ledger.openPrice ∧ ledger.openConfidence = defaultConfidence
  counted : ledger.holds + (lots.length + ledger.openFill.length) = decisions

variable {ledger : Ledger} {lots : List Lot} {decisions : ℕ} {price : ℚ}

theorem sound_start : Sound config [] 0 { cash := config.startingEquity } where
  evaluations := rfl
  fills := rfl
  cash := by simp
  flat _ := rfl
  opened moved := absurd rfl moved
  counted := rfl

theorem slipped_pos (ledger : Ledger) (positive : 0 < price) (signedDelta : ℚ) :
    0 < ledger.slipped config price signedDelta := by
  have within := (config.draws.within ledger.fills.length).2
  have least := (config.draws.within ledger.fills.length).1
  rw [slippageMinPct] at least
  rw [slippageMaxPct] at within
  rw [slipped]
  refine mul_pos positive ?_
  split_ifs
  · linarith
  · linarith

theorem Sound.close (sound : Sound config lots decisions ledger) (isOpen : ledger.openDir ≠ 0)
    (price : ℚ) (bar : ℕ) :
    ∃ (lot : Lot) (closed : Ledger), ledger.close config price bar = .ok closed ∧
      closed.openDir = 0 ∧ Sound config (lots ++ [lot]) decisions closed := by
  obtain ⟨position, paid, confident⟩ := sound.opened isOpen
  let lot : Lot := ⟨ledger.openDir, ledger.openQty, ledger.openPrice,
    ledger.slipped config price (-ledger.positionQty), ledger.openBar, bar⟩
  have scores : ledger.score config (ledger.slipped config price (-ledger.positionQty)) bar =
      .ok (lot.scored config) := by
    rw [score, divide_of_ne _ paid.ne', Lot.scored, Lot.trade]
    simp only [closedTrade, confident]
    rfl
  let closed : Ledger := { ledger with
    cash := ledger.cash - -ledger.positionQty * lot.exitPrice
    evaluations := ledger.evaluations ++ [lot.scored config]
    positionQty := 0
    openDir := 0
    fills := ledger.fills ++ [⟨-ledger.positionQty, lot.exitPrice, bar⟩] }
  refine ⟨lot, closed, ?_, rfl, ?_⟩
  · rw [Ledger.close, scores]
    rfl
  · have closedFill : ledger.openFill = [⟨ledger.positionQty, ledger.openPrice, ledger.openBar⟩] :=
      if_neg isOpen
    have noFill : closed.openFill = [] := rfl
    refine ⟨?_, ?_, ?_, fun _ => rfl, fun moved => absurd rfl moved, ?_⟩
    · change ledger.evaluations ++ [lot.scored config] = _
      rw [sound.evaluations, List.map_append]
      rfl
    · have fills := sound.fills
      rw [closedFill, position] at fills
      change ledger.fills ++ [⟨-ledger.positionQty, lot.exitPrice, bar⟩] = _
      rw [noFill, fills, position, List.flatMap_append, List.append_nil, List.append_assoc]
      rfl
    · have cash := sound.cash
      change ledger.cash - -ledger.positionQty * lot.exitPrice = _ - 0 * ledger.openPrice
      rw [List.map_append, List.sum_append, List.map_singleton, List.sum_singleton, Lot.pnl, cash,
        position]
      ring
    · have counted := sound.counted
      rw [closedFill, List.length_singleton] at counted
      rw [noFill, List.length_append, List.length_singleton]
      exact counted

/-- Opening a lot costs what it is worth at its fill. -/
theorem Sound.openLot (sound : Sound config lots decisions ledger) (isFlat : ledger.openDir = 0)
    {direction : ℤ} (directed : direction ≠ 0) (positive : 0 < price) (bar : ℕ) :
    ∃ opened, ledger.openLot config direction price bar = .ok opened ∧
      Sound config lots (decisions + 1) opened := by
  have noFill : ledger.openFill = [] := if_pos isFlat
  refine ⟨_, by rw [Ledger.openLot, divide_of_ne _ positive.ne']; rfl, ?_⟩
  refine ⟨sound.evaluations, ?_, ?_, fun nowFlat => absurd nowFlat directed, fun _ => ?_, ?_⟩
  · have fills := sound.fills
    rw [noFill, List.append_nil] at fills
    rw [openFill, if_neg directed]
    simp only [fills]
  · have cash := sound.cash
    rw [sound.flat isFlat, zero_mul, sub_zero] at cash
    simp only [cash]
  · exact ⟨rfl, slipped_pos ledger positive _, rfl⟩
  · have counted := sound.counted
    rw [noFill, List.length_nil, Nat.add_zero] at counted
    rw [openFill, if_neg directed, List.length_singleton]
    dsimp only
    omega

theorem Sound.hold (sound : Sound config lots decisions ledger) :
    Sound config lots (decisions + 1) { ledger with holds := ledger.holds + 1 } := by
  refine ⟨sound.evaluations, sound.fills, sound.cash, sound.flat, sound.opened, ?_⟩
  have counted := sound.counted
  change ledger.holds + 1 + (lots.length + ledger.openFill.length) = decisions + 1
  omega

theorem Sound.moveTo (sound : Sound config lots decisions ledger) {direction : ℤ}
    (directed : direction ≠ 0) (positive : 0 < price) (bar : ℕ) :
    ∃ later moved, ledger.moveTo config direction price bar = .ok moved ∧
      Sound config later (decisions + 1) moved := by
  rw [Ledger.moveTo]
  by_cases already : direction = ledger.openDir
  · rw [if_pos already]
    exact ⟨lots, _, rfl, sound.hold⟩
  · rw [if_neg already]
    by_cases isFlat : ledger.openDir = 0
    · rw [if_neg (not_not_intro isFlat)]
      obtain ⟨opened, opens, soundly⟩ := sound.openLot isFlat directed positive bar
      exact ⟨lots, opened, opens, soundly⟩
    · rw [if_pos isFlat]
      obtain ⟨lot, closed, closes, nowFlat, closedSoundly⟩ := sound.close isFlat price bar
      obtain ⟨opened, opens, soundly⟩ := closedSoundly.openLot nowFlat directed positive bar
      refine ⟨lots ++ [lot], opened, ?_, soundly⟩
      rw [closes]
      exact opens

theorem Sound.step (sound : Sound config lots decisions ledger) (bar : Bar)
    (positive : 0 < bar.price) :
    ∃ later stepped, ledger.step config bar = .ok stepped ∧
      Sound config later (decisions + 1) stepped := by
  obtain ⟨later, acted, acts, soundly⟩ : ∃ later acted, ledger.act config bar = .ok acted ∧
      Sound config later (decisions + 1) acted := by
    rw [act]
    by_cases hold : config.strategy bar = "hold"
    · rw [if_pos hold]
      exact ⟨lots, _, rfl, sound.hold⟩
    · rw [if_neg hold]
      have directed : (if config.strategy bar = "buy" then (1 : ℤ) else -1) ≠ 0 := by
        split_ifs
        · exact one_ne_zero
        · exact neg_ne_zero.mpr one_ne_zero
      have signalled : Sound config lots decisions { ledger with signals := ledger.signals + 1 } :=
        ⟨sound.evaluations, sound.fills, sound.cash, sound.flat, sound.opened, sound.counted⟩
      exact signalled.moveTo directed positive bar.index
  refine ⟨later, { acted with
    equityCurve := acted.equityCurve ++ [acted.cash + acted.positionQty * bar.price] }, ?_, ?_⟩
  · rw [Ledger.step, acts]
    rfl
  · exact ⟨soundly.evaluations, soundly.fills, soundly.cash, soundly.flat, soundly.opened,
      soundly.counted⟩

theorem Sound.run (sound : Sound config lots decisions ledger) (bars : List Bar)
    (positive : ∀ bar ∈ bars, 0 < bar.price) :
    ∃ later looped, bars.foldlM (Ledger.step config) ledger = .ok looped ∧
      Sound config later (decisions + bars.length) looped := by
  induction bars generalizing ledger lots decisions with
  | nil => exact ⟨lots, ledger, rfl, sound⟩
  | cons bar bars induction =>
      obtain ⟨between, stepped, steps, soundly⟩ := sound.step bar (positive bar List.mem_cons_self)
      obtain ⟨later, looped, loops, soundlyLooped⟩ :=
        induction soundly fun other member => positive other (List.mem_cons_of_mem _ member)
      refine ⟨later, looped, ?_, ?_⟩
      · rw [List.foldlM_cons, steps]
        exact loops
      · rw [List.length_cons, Nat.add_comm bars.length 1, ← Nat.add_assoc]
        exact soundlyLooped

/-- The residual close leaves no lot open. -/
theorem Sound.settle (sound : Sound config lots decisions ledger) {prices : List ℚ}
    (priced : ledger.openDir ≠ 0 → prices ≠ []) :
    ∃ later settled, ledger.settle config prices = .ok settled ∧ settled.openDir = 0 ∧
      Sound config later decisions settled := by
  rw [Ledger.settle]
  by_cases isFlat : ledger.openDir = 0
  · rw [if_neg fun residual => residual.1 isFlat]
    exact ⟨lots, ledger, rfl, isFlat, sound⟩
  · rw [if_pos ⟨isFlat, priced isFlat⟩]
    obtain ⟨lot, closed, closes, nowFlat, soundly⟩ :=
      sound.close isFlat (prices.getLastD 0) (prices.length - 1)
    exact ⟨lots ++ [lot], closed, closes, nowFlat, soundly⟩

end Ledger

/-! ## Runs -/

theorem bars_positive {prices : List ℚ} (positive : ∀ price ∈ prices, 0 < price) :
    ∀ bar ∈ bars prices, 0 < bar.price := by
  intro bar member
  obtain ⟨index, within, rfl⟩ := List.mem_map.mp member
  have short : index < prices.length := by
    have bounds := List.mem_range'_1.mp within
    omega
  change 0 < prices.getD index 0
  rw [List.getD_eq_getElem?_getD, List.getElem?_eq_getElem short, Option.getD_some]
  exact positive _ (List.getElem_mem short)

/-- What the summary takes over from the ledger. -/
theorem Ledger.result_eq (ledger : Ledger) (prices : List ℚ)
    (something : config.startingEquity ≠ 0) :
    ∃ result, ledger.result config prices = .ok result ∧ result.finalEquity = ledger.cash ∧
      result.evaluations = ledger.evaluations ∧ result.holds = ledger.holds := by
  rw [Ledger.result, divide_of_ne _ something]
  exact ⟨_, rfl, rfl, rfl, rfl⟩

/-- The run returns a result, ends flat, and its ledger adds up. -/
structure LedgerHolds (config : BacktestConfig) (prices : List ℚ) (ledger : Ledger)
    (result : BacktestResult) (lots : List Lot) : Prop where
  replays : replayPrices config prices = .ok ledger
  returns : runBacktest config prices = .ok result
  flat : ledger.openDir = 0 ∧ ledger.positionQty = 0
  finalEquity : result.finalEquity = config.startingEquity + totalPnl result.evaluations
  /-- Every lot has two consecutive fills, and its evaluation is of these. -/
  fills : ledger.fills = lots.flatMap Lot.fills
  evaluations : result.evaluations = lots.map (Lot.scored config)
  opened : result.evaluations.length = lots.length
  decisions : result.holds + lots.length = (bars prices).length

theorem exists_settled (config : BacktestConfig) {prices : List ℚ}
    (positive : ∀ price ∈ prices, 0 < price) :
    ∃ settled lots, replayPrices config prices = .ok settled ∧ settled.openDir = 0 ∧
      Ledger.Sound config lots (bars prices).length settled := by
  have start : Ledger.Sound config [] 0 { cash := config.startingEquity } := Ledger.sound_start
  obtain ⟨lots, looped, loops, sound⟩ := start.run (bars prices) (bars_positive positive)
  rw [Nat.zero_add] at sound
  have priced : looped.openDir ≠ 0 → prices ≠ [] := by
    rintro isOpen rfl
    have untouched : looped = { cash := config.startingEquity } := Except.ok.inj loops.symm
    exact isOpen (untouched ▸ rfl)
  obtain ⟨closed, settled, settles, isFlat, soundly⟩ := sound.settle priced
  refine ⟨settled, closed, ?_, isFlat, soundly⟩
  rw [replayPrices, loops]
  exact settles

theorem exists_ledgerHolds (config : BacktestConfig) {prices : List ℚ}
    (positive : ∀ price ∈ prices, 0 < price) (something : config.startingEquity ≠ 0) :
    ∃ ledger result lots, LedgerHolds config prices ledger result lots := by
  obtain ⟨settled, closed, replays, isFlat, soundly⟩ := exists_settled config positive
  have noFill : settled.openFill = [] := if_pos isFlat
  have cash := soundly.cash
  rw [soundly.flat isFlat, zero_mul, sub_zero] at cash
  have counted := soundly.counted
  rw [noFill, List.length_nil, Nat.add_zero] at counted
  obtain ⟨result, returns, equity, evaluations, holds⟩ := settled.result_eq prices something
  refine ⟨settled, result, closed, ⟨replays, ?_, ⟨isFlat, soundly.flat isFlat⟩, ?_, ?_, ?_, ?_,
    ?_⟩⟩
  · rw [runBacktest, replays]
    exact returns
  · rw [equity, evaluations, soundly.evaluations, totalPnl_scored, cash]
  · rw [soundly.fills, noFill, List.append_nil]
  · rw [evaluations, soundly.evaluations]
  · rw [evaluations, soundly.evaluations, List.length_map]
  · rw [holds, counted]

/-- The return on nothing is a division by zero. -/
theorem not_returns_of_nothing {prices : List ℚ} {ledger : Ledger}
    (nothing : config.startingEquity = 0) (replays : replayPrices config prices = .ok ledger) :
    ∀ result, runBacktest config prices ≠ .ok result := by
  intro result returns
  rw [runBacktest, replays] at returns
  change ledger.result config prices = .ok result at returns
  rw [Ledger.result, nothing, divide_zero] at returns
  cases returns

/-- The ledger of a backtest over positive prices adds up unless it starts with nothing. -/
theorem ledgerHolds_iff (config : BacktestConfig) {prices : List ℚ}
    (positive : ∀ price ∈ prices, 0 < price) :
    (∃ ledger result lots, LedgerHolds config prices ledger result lots) ↔
      config.startingEquity ≠ 0 := by
  constructor
  · rintro ⟨ledger, result, lots, holds⟩ nothing
    exact not_returns_of_nothing nothing holds.replays result holds.returns
  · exact exists_ledgerHolds config positive

def leastDraws : Draws where
  draw _ := slippageMinPct
  within _ := ⟨le_refl _, by norm_num [slippageMinPct, slippageMaxPct]⟩

/-- A strategy that follows every move. -/
def follower (startingEquity : ℚ) : BacktestConfig where
  sqrt _ := 0
  strategy bar := if 0 < bar.pct then "buy" else "sell"
  startingEquity
  draws := leastDraws

theorem ledgerHolds_flip :
    ∃ ledger result lots, LedgerHolds (follower 1000) [100, 110, 99] ledger result lots :=
  (ledgerHolds_iff (follower 1000) (by decide +kernel)).mpr (by norm_num [follower])

/-- Nothing can be said of a return on nothing. -/
theorem no_result_from_nothing :
    ¬∃ ledger result lots, LedgerHolds (follower 0) [100, 110, 99] ledger result lots := by
  rintro ⟨ledger, result, lots, holds⟩
  have raised : (runBacktest (follower 0) [100, 110, 99]).isOk = false := by decide +kernel
  rw [holds.returns] at raised
  cases raised

/-! ## Alignment

A lot is scored with the side of the order that closed it and the action of the order that opened
it.  The alignment takes both for directions, so no lot is aligned with its own signal. -/

/-- The side that closes a lot is never the action that opened it. -/
theorem Lot.signalAlignment_scored (lot : Lot) : (lot.scored config).signalAlignment = 1 / 2 := by
  have sides : Learning.scoreSignalAlignment (some "sell") (some "buy") = 1 / 2 ∧
      Learning.scoreSignalAlignment (some "buy") (some "sell") = 1 / 2 := by decide +kernel
  have half : roundHalfEven 4 (1 / 2) = 1 / 2 := by decide +kernel
  change roundHalfEven 4 (Learning.scoreSignalAlignment
    (some (if 0 < lot.direction then "sell" else "buy"))
    (some (if 0 < lot.direction then "buy" else "sell"))) = 1 / 2
  split_ifs
  · rw [sides.1, half]
  · rw [sides.2, half]

namespace Ledger

variable {ledger later : Ledger} {bar : Bar}

theorem fills_moveTo {direction : ℤ} {price : ℚ} {index : ℕ}
    (moves : ledger.moveTo config direction price index = .ok later) :
    ∃ more, later.fills = ledger.fills ++ more := by
  have opened : ∀ before : Ledger, before.openLot config direction price index = .ok later →
      ∃ more, later.fills = before.fills ++ more := by
    intro before opens
    obtain ⟨qty, -, opens⟩ := bind_eq_ok.mp opens
    cases opens
    exact ⟨_, rfl⟩
  rw [moveTo] at moves
  split_ifs at moves
  · cases moves
    exact ⟨[], (List.append_nil _).symm⟩
  · obtain ⟨closed, closes, opens⟩ := bind_eq_ok.mp moves
    obtain ⟨evaluation, -, closes⟩ := bind_eq_ok.mp closes
    cases closes
    obtain ⟨more, fills⟩ := opened _ opens
    exact ⟨_, fills.trans (List.append_assoc _ _ _)⟩
  · exact opened ledger moves

/-- A pass takes no fill back. -/
theorem fills_step (steps : ledger.step config bar = .ok later) :
    ∃ more, later.fills = ledger.fills ++ more := by
  obtain ⟨acted, acts, steps⟩ := bind_eq_ok.mp steps
  cases steps
  rw [act] at acts
  by_cases hold : config.strategy bar = "hold"
  · rw [if_pos hold] at acts
    cases acts
    exact ⟨[], (List.append_nil _).symm⟩
  · rw [if_neg hold] at acts
    exact (fills_moveTo acts :)

theorem fills_run {bars : List Bar} (runs : bars.foldlM (step config) ledger = .ok later) :
    ∃ more, later.fills = ledger.fills ++ more := by
  induction bars generalizing ledger with
  | nil =>
      cases runs
      exact ⟨[], (List.append_nil _).symm⟩
  | cons bar bars induction =>
      rw [List.foldlM_cons] at runs
      obtain ⟨stepped, steps, runs⟩ := bind_eq_ok.mp runs
      obtain ⟨first, made⟩ := fills_step steps
      obtain ⟨others, fills⟩ := induction runs
      exact ⟨first ++ others, by rw [fills, made, List.append_assoc]⟩

/-- Nothing has been traded. -/
def Untouched (ledger : Ledger) : Prop := ledger.openDir = 0 ∧ ledger.fills = []

/-- A flat ledger trades unless the strategy holds. -/
theorem Untouched.step (untouched : ledger.Untouched)
    (steps : ledger.step config bar = .ok later) :
    if config.strategy bar = "hold" then later.Untouched else later.fills ≠ [] := by
  obtain ⟨acted, acts, steps⟩ := bind_eq_ok.mp steps
  cases steps
  rw [act] at acts
  split_ifs with hold
  · rw [if_pos hold] at acts
    cases acts
    exact untouched
  · rw [if_neg hold] at acts
    have directed : (if config.strategy bar = "buy" then (1 : ℤ) else -1) ≠ 0 := by
      split_ifs <;> decide
    have moves : ¬(if config.strategy bar = "buy" then (1 : ℤ) else -1) = ledger.openDir := by
      rwa [untouched.1]
    rw [moveTo, if_neg moves, if_neg (not_not_intro untouched.1)] at acts
    obtain ⟨flat, same, opens⟩ := bind_eq_ok.mp acts
    cases same
    obtain ⟨qty, -, opens⟩ := bind_eq_ok.mp opens
    cases opens
    exact List.append_ne_nil_of_right_ne_nil _ (List.cons_ne_nil _ _)

theorem Untouched.run_iff {bars : List Bar} (untouched : ledger.Untouched)
    (runs : bars.foldlM (Ledger.step config) ledger = .ok later) :
    (later.fills = [] ↔ ∀ bar ∈ bars, config.strategy bar = "hold") ∧
      (later.fills = [] → later.openDir = 0) := by
  induction bars generalizing ledger with
  | nil =>
      cases runs
      exact ⟨iff_of_true untouched.2 (by simp), fun _ => untouched.1⟩
  | cons bar bars induction =>
      rw [List.foldlM_cons] at runs
      obtain ⟨stepped, steps, runs⟩ := bind_eq_ok.mp runs
      have first := untouched.step steps
      rw [List.forall_mem_cons]
      split_ifs at first with hold
      · obtain ⟨same, flat⟩ := induction first runs
        exact ⟨by simpa [hold] using same, flat⟩
      · obtain ⟨more, fills⟩ := fills_run runs
        have filled : later.fills ≠ [] := by
          rw [fills]
          exact List.append_ne_nil_of_left_ne_nil first _
        exact ⟨iff_of_false filled fun all => hold all.1, fun none => absurd none filled⟩

end Ledger

/-- A run makes no fill exactly where its strategy holds on every bar. -/
theorem fills_eq_nil_iff {prices : List ℚ} {settled : Ledger}
    (replays : replayPrices config prices = .ok settled) :
    settled.fills = [] ↔ ∀ bar ∈ bars prices, config.strategy bar = "hold" := by
  obtain ⟨looped, loops, settles⟩ := bind_eq_ok.mp replays
  have start : Ledger.Untouched { cash := config.startingEquity } := ⟨rfl, rfl⟩
  obtain ⟨idle, flat⟩ := start.run_iff loops
  rw [← idle]
  rw [Ledger.settle] at settles
  split_ifs at settles with isOpen
  · obtain ⟨evaluation, -, closes⟩ := bind_eq_ok.mp settles
    cases closes
    exact iff_of_false (List.append_ne_nil_of_right_ne_nil _ (List.cons_ne_nil _ _))
      fun none => isOpen.1 (flat none)
  · cases settles
    rfl

/-- Every evaluation that a backtest records is aligned with the signal of its lot. -/
def Aligned (config : BacktestConfig) (prices : List ℚ) : Prop :=
  ∀ result, runBacktest config prices = .ok result → ∀ scored ∈ result.evaluations,
    scored.signalAlignment = 1 ∧ .misalignedSignal ∉ scored.mistakes

/-- The evaluations are aligned only where there are none. -/
theorem aligned_iff (config : BacktestConfig) {prices : List ℚ}
    (positive : ∀ price ∈ prices, 0 < price) :
    Aligned config prices ↔
      config.startingEquity = 0 ∨ ∀ bar ∈ bars prices, config.strategy bar = "hold" := by
  by_cases nothing : config.startingEquity = 0
  · obtain ⟨settled, -, replays, -⟩ := exists_settled config positive
    exact iff_of_true
      (fun result returns => absurd returns (not_returns_of_nothing nothing replays result))
      (.inl nothing)
  · obtain ⟨ledger, result, lots, holds⟩ := exists_ledgerHolds config positive nothing
    rw [or_iff_right nothing, ← fills_eq_nil_iff holds.replays, holds.fills]
    cases lots with
    | nil =>
        refine iff_of_true (fun other returns scored member => ?_) rfl
        obtain rfl := Except.ok.inj (holds.returns.symm.trans returns)
        rw [holds.evaluations] at member
        cases member
    | cons lot lots =>
        refine iff_of_false (fun aligned => ?_) (List.cons_ne_nil _ _)
        have first : lot.scored config ∈ result.evaluations := by
          rw [holds.evaluations]
          exact List.mem_cons_self
        have one := (aligned result holds.returns _ first).1
        rw [lot.signalAlignment_scored] at one
        norm_num at one

theorem aligned_iff_flip :
    Aligned (follower 1000) [100, 110, 99] ↔
      (follower 1000).startingEquity = 0 ∨
        ∀ bar ∈ bars [100, 110, 99], (follower 1000).strategy bar = "hold" :=
  aligned_iff (follower 1000) (by decide +kernel)

/-- A long lot that is closed by the forced sale at the end. -/
theorem long_lot_not_aligned : ¬∀ (config : BacktestConfig) (prices : List ℚ),
    (∀ price ∈ prices, 0 < price) → Aligned config prices := by
  intro all
  have aligned := all (follower 1000) [100, 110] (by decide +kernel)
  have scores : (runBacktest (follower 1000) [100, 110]).toOption.map
      (fun result => result.evaluations.map (·.signalAlignment)) = some [1 / 2] := by
    decide +kernel
  cases ran : runBacktest (follower 1000) [100, 110] with
  | error raised =>
      rw [ran] at scores
      cases scores
  | ok result =>
      rw [ran] at scores
      obtain ⟨scored, recorded, half⟩ := List.map_eq_singleton_iff.mp (Option.some.inj scores)
      have one := (aligned result ran scored (by simp [recorded])).1
      rw [half] at one
      norm_num at one

end TradingControl.Backtest
