import TradingControl.Backtest.Engine

/-!
# Bars of a common prefix

Two series that agree on their first entries have the same bars there.  Each pass of the loop only
adds to what was recorded, the residual close comes after the last bar, and it is the last entry of
the equity curve that the final equity takes the place of.
-/

namespace TradingControl.Backtest

open Python

/-! ## Closings -/

/-- The evaluations, each with the bar at which its lot was closed: every second fill closes a
lot. -/
def closings : List Fill → List Learning.ScoredTrade → List (Learning.ScoredTrade × ℕ)
  | _ :: exit :: fills, evaluation :: evaluations =>
      (evaluation, exit.bar) :: closings fills evaluations
  | _, _ => []

def closedBefore (bar : ℕ) (fills : List Fill) (evaluations : List Learning.ScoredTrade) :
    List Learning.ScoredTrade :=
  ((closings fills evaluations).filter fun closing => closing.2 < bar).map Prod.fst

variable {fills : List Fill} {evaluations : List Learning.ScoredTrade}

theorem closings_cons (entry exit : Fill) (evaluation : Learning.ScoredTrade) :
    closings (entry :: exit :: fills) (evaluation :: evaluations) =
      (evaluation, exit.bar) :: closings fills evaluations := rfl

/-- The fill that opens a lot closes none. -/
theorem closings_open (balanced : fills.length = 2 * evaluations.length) (entry : Fill) :
    closings (fills ++ [entry]) evaluations = closings fills evaluations := by
  induction evaluations generalizing fills with
  | nil =>
      rw [List.length_eq_zero_iff.mp balanced]
      rfl
  | cons evaluation evaluations induction =>
      match fills, balanced with
      | first :: second :: rest, balanced =>
          rw [List.length_cons, List.length_cons, List.length_cons] at balanced
          rw [List.cons_append, List.cons_append, closings_cons, closings_cons,
            induction (by omega)]

theorem closings_close (balanced : fills.length = 2 * evaluations.length + 1) (exit : Fill)
    (evaluation : Learning.ScoredTrade) :
    closings (fills ++ [exit]) (evaluations ++ [evaluation]) =
      closings fills evaluations ++ [(evaluation, exit.bar)] := by
  induction evaluations generalizing fills with
  | nil =>
      obtain ⟨entry, rfl⟩ := List.length_eq_one_iff.mp balanced
      rfl
  | cons held evaluations induction =>
      match fills, balanced with
      | first :: second :: rest, balanced =>
          rw [List.length_cons, List.length_cons, List.length_cons] at balanced
          rw [List.cons_append, List.cons_append, List.cons_append, closings_cons, closings_cons,
            induction (by omega), List.cons_append]

/-! ## What a pass adds -/

namespace Ledger

/-- Every lot but an open one has two fills and an evaluation. -/
def Balanced (ledger : Ledger) : Prop :=
  ledger.fills.length = 2 * ledger.evaluations.length + if ledger.openDir = 0 then 0 else 1

/-- The later ledger has closed lots from a bar on, and marked so many bars. -/
structure Grown (bar marks : ℕ) (ledger later : Ledger) : Prop where
  balanced : later.Balanced
  equity : ∃ more, later.equityCurve = ledger.equityCurve ++ more ∧ more.length = marks
  closings : ∃ more, closings later.fills later.evaluations =
      closings ledger.fills ledger.evaluations ++ more ∧ ∀ closing ∈ more, bar ≤ closing.2

variable {config : BacktestConfig} {bar marks : ℕ} {ledger later : Ledger}

theorem Grown.refl (balanced : ledger.Balanced) : Grown bar 0 ledger ledger :=
  ⟨balanced, ⟨[], by simp⟩, [], by simp⟩

theorem grown_hold (balanced : ledger.Balanced) :
    Grown bar 0 ledger { ledger with holds := ledger.holds + 1 } :=
  ⟨balanced, ⟨[], by simp⟩, [], by simp⟩

theorem Grown.trans {last : Ledger} {others : ℕ} (grown : Grown bar marks ledger later)
    (more : Grown bar others later last) : Grown bar (marks + others) ledger last := by
  obtain ⟨-, ⟨equity, curve, marked⟩, closed, closes, after⟩ := grown
  obtain ⟨balanced, ⟨equityToo, curveToo, markedToo⟩, closedToo, closesToo, afterToo⟩ := more
  refine ⟨balanced, ⟨equity ++ equityToo, ?_, ?_⟩, closed ++ closedToo, ?_, ?_⟩
  · rw [curveToo, curve, List.append_assoc]
  · rw [List.length_append, marked, markedToo]
  · rw [closesToo, closes, List.append_assoc]
  · exact List.forall_mem_append.mpr ⟨after, afterToo⟩

theorem grown_close (balanced : ledger.Balanced) (isOpen : ledger.openDir ≠ 0) {exitBar : ℕ}
    (late : bar ≤ exitBar) {price : ℚ} (closes : ledger.close config price exitBar = .ok later) :
    Grown bar 0 ledger later ∧ later.openDir = 0 := by
  rw [Balanced, if_neg isOpen] at balanced
  obtain ⟨evaluation, -, closes⟩ := bind_eq_ok.mp closes
  cases closes
  refine ⟨⟨?_, ⟨[], by simp⟩, [_], closings_close balanced _ evaluation, by simpa using late⟩, rfl⟩
  simp [Balanced, balanced]
  ring

theorem grown_openLot (balanced : ledger.Balanced) (isFlat : ledger.openDir = 0) {direction : ℤ}
    (directed : direction ≠ 0) {price : ℚ} {openBar : ℕ}
    (opens : ledger.openLot config direction price openBar = .ok later) :
    Grown bar 0 ledger later := by
  rw [Balanced, if_pos isFlat] at balanced
  obtain ⟨qty, -, opens⟩ := bind_eq_ok.mp opens
  cases opens
  refine ⟨?_, ⟨[], by simp⟩, [], ?_, by simp⟩
  · simp [Balanced, balanced, directed]
  · rw [List.append_nil]
    exact closings_open balanced _

/-- A decision marks nothing, and closes a lot at its own bar. -/
theorem grown_moveTo (balanced : ledger.Balanced) {direction : ℤ} (directed : direction ≠ 0)
    {price : ℚ} {now : ℕ} (late : bar ≤ now)
    (moves : ledger.moveTo config direction price now = .ok later) : Grown bar 0 ledger later := by
  rw [moveTo] at moves
  split_ifs at moves with already isFlat
  · cases moves
    exact grown_hold balanced
  · obtain ⟨closed, closes, opens⟩ := bind_eq_ok.mp moves
    obtain ⟨grown, nowFlat⟩ := grown_close balanced isFlat late closes
    exact grown.trans (grown_openLot grown.balanced nowFlat directed opens)
  · exact grown_openLot balanced (not_not.mp isFlat) directed moves

theorem grown_step (balanced : ledger.Balanced) {now : Bar} (late : bar ≤ now.index)
    (steps : ledger.step config now = .ok later) : Grown bar 1 ledger later := by
  obtain ⟨acted, acts, steps⟩ := bind_eq_ok.mp steps
  cases steps
  have grown : Grown bar 0 ledger acted := by
    rw [act] at acts
    by_cases hold : config.strategy now = "hold"
    · rw [if_pos hold] at acts
      cases acts
      exact grown_hold balanced
    · rw [if_neg hold] at acts
      have directed : (if config.strategy now = "buy" then (1 : ℤ) else -1) ≠ 0 := by
        split_ifs <;> decide
      have signalled : { ledger with signals := ledger.signals + 1 }.Balanced := balanced
      have moved := @grown_moveTo config bar _ _ signalled _ directed _ _ late acts
      exact ⟨moved.balanced, moved.equity, moved.closings⟩
  obtain ⟨equity, curve, marked⟩ := grown.equity
  refine ⟨grown.balanced, ⟨equity ++ [acted.cash + acted.positionQty * now.price], ?_, ?_⟩,
    grown.closings⟩
  · rw [← List.append_assoc, ← curve]
  · rw [List.length_append, marked]
    rfl

theorem grown_run {bars : List Bar} (balanced : ledger.Balanced)
    (late : ∀ now ∈ bars, bar ≤ now.index)
    (runs : bars.foldlM (step config) ledger = .ok later) :
    Grown bar bars.length ledger later := by
  induction bars generalizing ledger with
  | nil =>
      cases runs
      exact Grown.refl balanced
  | cons now bars induction =>
      obtain ⟨now_late, late⟩ := List.forall_mem_cons.mp late
      rw [List.foldlM_cons] at runs
      obtain ⟨stepped, steps, runs⟩ := bind_eq_ok.mp runs
      have grown := grown_step balanced now_late steps
      rw [List.length_cons, Nat.add_comm]
      exact grown.trans (induction grown.balanced late runs)

theorem grown_settle (balanced : ledger.Balanced) {prices : List ℚ}
    (late : bar ≤ prices.length - 1) (settles : ledger.settle config prices = .ok later) :
    Grown bar 0 ledger later := by
  rw [settle] at settles
  split_ifs at settles with isOpen
  · exact (grown_close balanced isOpen.1 late settles).1
  · cases settles
    exact Grown.refl balanced

theorem Grown.closedBefore (grown : Grown bar marks ledger later) :
    Backtest.closedBefore bar later.fills later.evaluations =
      Backtest.closedBefore bar ledger.fills ledger.evaluations := by
  obtain ⟨more, closings, after⟩ := grown.closings
  have none : more.filter (fun closing => closing.2 < bar) = [] := by
    rw [List.filter_eq_nil_iff]
    intro closing member early
    exact absurd (of_decide_eq_true early) (after closing member).not_gt
  rw [Backtest.closedBefore, closings, List.filter_append, none, List.append_nil,
    Backtest.closedBefore]

end Ledger

/-! ## Bars of a prefix -/

variable {count : ℕ} {first second prices : List ℚ}

/-- A bar looks at no price after its own. -/
theorem barAt_congr {index : ℕ} (within : index < count)
    (agree : first.take count = second.take count) : barAt first index = barAt second index := by
  have history : first.take (index + 1) = second.take (index + 1) := by
    have shorter := congrArg (List.take (index + 1)) agree
    rwa [List.take_take, List.take_take, min_eq_left within] at shorter
  have price : ∀ place, place < count → first.getD place 0 = second.getD place 0 := by
    intro place within
    have same := congrArg (fun prices => prices[place]?) agree
    simp only [List.getElem?_take_of_lt within] at same
    rw [List.getD_eq_getElem?_getD, List.getD_eq_getElem?_getD, same]
  rw [barAt, barAt, price index within, price (index - 1) (by omega), history]

def barsBefore (count : ℕ) (prices : List ℚ) : List Bar := (bars prices).take (count - 1)

theorem barsBefore_eq (long : count < prices.length) :
    barsBefore count prices = (List.range' 1 (count - 1)).map (barAt prices) := by
  rw [barsBefore, bars, ← List.map_take, List.take_range'_of_length_ge (by omega)]

theorem barsBefore_congr (agree : first.take count = second.take count)
    (long : count < first.length) (longToo : count < second.length) :
    barsBefore count first = barsBefore count second := by
  rw [barsBefore_eq long, barsBefore_eq longToo]
  refine List.map_congr_left fun index member => barAt_congr ?_ agree
  have bounds := List.mem_range'_1.mp member
  omega

theorem le_index_of_mem_drop (positive : 0 < count) :
    ∀ bar ∈ (bars prices).drop (count - 1), count ≤ bar.index := by
  intro bar member
  rw [bars, ← List.map_drop, List.drop_range'] at member
  obtain ⟨index, listed, rfl⟩ := List.mem_map.mp member
  have bounds := List.mem_range'_1.mp listed
  change count ≤ index
  omega

/-! ## Runs -/

variable (config : BacktestConfig)

/-- The loop over the bars before the price of an index. -/
def replayBefore (count : ℕ) (prices : List ℚ) : Except Raised Ledger :=
  (barsBefore count prices).foldlM (Ledger.step config) { cash := config.startingEquity }

structure Runs (prices : List ℚ) (ledger : Ledger) (result : BacktestResult) : Prop where
  replays : replayPrices config prices = .ok ledger
  returns : ledger.result config prices = .ok result

variable {config}

/-- A run goes through the loop before an index and adds to what was recorded there. -/
theorem Runs.grown {ledger : Ledger} {result : BacktestResult}
    (runs : Runs config prices ledger result) (positive : 0 < count)
    (long : count < prices.length) :
    ∃ passed, replayBefore config count prices = .ok passed ∧
      passed.equityCurve.length = count - 1 ∧
      Ledger.Grown count (prices.length - count) passed ledger := by
  obtain ⟨looped, loops, settles⟩ := bind_eq_ok.mp runs.replays
  rw [← List.take_append_drop (count - 1) (bars prices), List.foldlM_append] at loops
  obtain ⟨passed, passes, loops⟩ := bind_eq_ok.mp loops
  have start : Ledger.Balanced { cash := config.startingEquity } := rfl
  have length : (bars prices).length = prices.length - 1 := by
    rw [bars, List.length_map, List.length_range']
  have begun := @Ledger.grown_run config 0 _ _ _ start (fun _ _ => Nat.zero_le _) passes
  have rest := Ledger.grown_run begun.balanced (le_index_of_mem_drop positive) loops
  have settled := rest.trans (Ledger.grown_settle rest.balanced (by omega) settles)
  refine ⟨passed, passes, ?_, ?_⟩
  · obtain ⟨curve, marks, length⟩ := begun.equity
    rw [marks, List.nil_append, length, List.length_take]
    omega
  · rw [List.length_drop, length] at settled
    have same : prices.length - 1 - (count - 1) + 0 = prices.length - count := by omega
    exact same ▸ settled

/-- The final equity takes the place of the last mark alone. -/
theorem take_realizedCurve {curve more : List ℚ} (marked : more ≠ []) (finalEquity : ℚ) :
    (realizedCurve (curve ++ more) finalEquity).take curve.length = curve := by
  have filled : (curve ++ more).isEmpty = false := by
    simp [List.isEmpty_eq_false_iff, marked]
  rw [realizedCurve, if_neg (by simp [filled]), List.dropLast_append_of_ne_nil marked,
    List.append_assoc, List.take_left']
  rfl

theorem Runs.recorded {ledger : Ledger} {result : BacktestResult}
    (runs : Runs config prices ledger result) (positive : 0 < count)
    (long : count < prices.length) :
    ∃ passed, replayBefore config count prices = .ok passed ∧
      result.equityCurve.take (count - 1) = passed.equityCurve ∧
      closedBefore count ledger.fills result.evaluations =
        closedBefore count passed.fills passed.evaluations := by
  obtain ⟨passed, passes, length, grown⟩ := runs.grown positive long
  obtain ⟨totalReturn, -, returns⟩ := bind_eq_ok.mp runs.returns
  cases returns
  obtain ⟨more, curve, marked⟩ := grown.equity
  have nonempty : more ≠ [] := List.ne_nil_of_length_pos (by omega)
  refine ⟨passed, passes, ?_, grown.closedBefore⟩
  dsimp only
  rw [curve, ← length, take_realizedCurve nonempty]

variable (config)

/-- What two runs have in common before the price of an index: the loop, the marks of the bars, and
the evaluations of the lots that were closed. -/
structure SameBefore (count : ℕ) (first second : List ℚ) : Prop where
  replayed : replayBefore config count first = replayBefore config count second
  recorded : ∀ ledger result other otherResult, Runs config first ledger result →
    Runs config second other otherResult →
      result.equityCurve.take (count - 1) = otherResult.equityCurve.take (count - 1) ∧
        closedBefore count ledger.fills result.evaluations =
          closedBefore count other.fills otherResult.evaluations

theorem sameBefore (agree : first.take count = second.take count) (long : count < first.length)
    (longToo : count < second.length) : SameBefore config count first second := by
  have replayed : replayBefore config count first = replayBefore config count second := by
    rw [replayBefore, replayBefore, barsBefore_congr agree long longToo]
  refine ⟨replayed, fun ledger result other otherResult runs runsToo => ?_⟩
  rcases Nat.eq_zero_or_pos count with rfl | positive
  · simp [closedBefore]
  · obtain ⟨passed, passes, curve, closed⟩ := runs.recorded positive long
    obtain ⟨passedToo, passesToo, curveToo, closedToo⟩ := runsToo.recorded positive longToo
    rw [passes, passesToo] at replayed
    cases replayed
    exact ⟨curve.trans curveToo.symm, closed.trans closedToo.symm⟩

end TradingControl.Backtest
