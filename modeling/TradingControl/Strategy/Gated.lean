import Mathlib.Data.List.MinMax
import TradingControl.Learning.Metrics
import TradingControl.Strategy.Pulled

/-!
# Promotion gate

A strategy version advances through the gate if the replay of its trades is no worse than the
champion's and the registry accepts the transition.  The registry is shared: an applied challenger
promotion, a challenger that starts and the seeding of the registry advance versions, too.
-/

namespace TradingControl

open Python

/-! ## Replay -/

/-- A historical trade, with the fields that the replay reads. -/
structure TradeRecord extends Learning.TradeEvaluation where
  side : Option String := none
  action : Option String := none
  slippageBps : Option ℚ := none

structure ReplayMetrics where
  tradeCount : ℕ := 0
  totalPnl : ℚ := 0
  winRate : ℚ := 0
  avgReturn : ℚ := 0
  sharpeRatio : ℚ := 0
  maxDrawdown : ℚ := 0
  falsePositiveRate : ℚ := 0
  avgSlippageBps : ℚ := 0
deriving DecidableEq

/-- The trade took a directional position. -/
def TradeRecord.actionable (trade : TradeRecord) : Bool :=
  lower (orDefault (orElse trade.side trade.action) "") ∈ ["buy", "sell"]

/-- `ReplayHarness.replay`. -/
def replay (sqrt : ℚ → ℚ) (trades : List TradeRecord) : ReplayMetrics :=
  if trades.isEmpty then {}
  else
    let metrics := Learning.computeLearningMetrics sqrt (trades.map (·.toTradeEvaluation))
    let pnl : TradeRecord → ℚ := fun trade => trade.pnl.getD 0
    let actionable := trades.filter TradeRecord.actionable
    let falsePositiveRate : ℚ :=
      if actionable.isEmpty then 0
      else actionable.countP (fun trade => pnl trade < 0) / actionable.length
    let slippages := trades.map fun trade => trade.slippageBps.getD 0
    { tradeCount := if metrics.totalTrades ≠ 0 then metrics.totalTrades else trades.length
      totalPnl := roundHalfEven 4 (trades.map pnl).sum
      winRate := metrics.winRate
      avgReturn := metrics.avgReturn
      sharpeRatio := metrics.sharpeRatio
      maxDrawdown := metrics.maxDrawdown
      falsePositiveRate := roundHalfEven 4 falsePositiveRate
      avgSlippageBps := roundHalfEven 4 (Learning.average slippages) }

/-! ## Regression -/

/-- `REGRESSION_MIN_SHARPE_DELTA`. -/
def minSharpeDelta : ℚ := -(10 / 100)

/-- `REGRESSION_MAX_DRAWDOWN_DELTA_PCT`. -/
def maxDrawdownDeltaPct : ℚ := 1

/-- `REGRESSION_MAX_FALSE_POSITIVE_DELTA`. -/
def maxFalsePositiveDelta : ℚ := 5 / 100

/-- `REGRESSION_MAX_SLIPPAGE_DELTA_BPS`. -/
def maxSlippageDeltaBps : ℚ := 2

/-- `REGRESSION_MIN_REPLAY_TRADES`. -/
def minReplayTrades : ℕ := 10

/-- Texts of numbers in the reasons of a verdict. -/
structure DeltaFormat where
  /-- `:+.3f`. -/
  signedThousandths : ℚ → String
  /-- `:+.2f`. -/
  signedHundredths : ℚ → String
  /-- `:.2f`. -/
  hundredths : ℚ → String

structure RegressionVerdict where
  approved : Bool
  reasons : List String
  sharpeDelta : ℚ
  drawdownDelta : ℚ
  falsePositiveDelta : ℚ
  slippageDelta : ℚ
deriving DecidableEq

/-- `RegressionValidator.validate`. -/
def validate (format : DeltaFormat) (champion candidate : ReplayMetrics) : RegressionVerdict :=
  let sharpeDelta := roundHalfEven 4 (candidate.sharpeRatio - champion.sharpeRatio)
  let drawdownDelta := roundHalfEven 4 (candidate.maxDrawdown - champion.maxDrawdown)
  let falsePositiveDelta :=
    roundHalfEven 4 (candidate.falsePositiveRate - champion.falsePositiveRate)
  let slippageDelta := roundHalfEven 4 (candidate.avgSlippageBps - champion.avgSlippageBps)
  let reasons :=
    (if candidate.tradeCount < minReplayTrades then
      ["insufficient sample: " ++ toString candidate.tradeCount ++ " < " ++
        toString minReplayTrades ++ " trades"]
    else []) ++
    (if sharpeDelta < minSharpeDelta then
      ["sharpe regressed " ++ format.signedThousandths sharpeDelta ++ " (limit " ++
        format.signedThousandths minSharpeDelta ++ ")"]
    else []) ++
    (if drawdownDelta < -maxDrawdownDeltaPct then
      ["drawdown worsened " ++ format.signedHundredths drawdownDelta ++ "pp (limit -" ++
        format.hundredths maxDrawdownDeltaPct ++ "pp)"]
    else []) ++
    (if maxFalsePositiveDelta < falsePositiveDelta then
      ["false-positive rate up " ++ format.signedThousandths falsePositiveDelta ++ " (limit +" ++
        format.signedThousandths maxFalsePositiveDelta ++ ")"]
    else []) ++
    if maxSlippageDeltaBps < slippageDelta then
      ["slippage up " ++ format.signedHundredths slippageDelta ++ "bps (limit +" ++
        format.hundredths maxSlippageDeltaBps ++ "bps)"]
    else []
  { approved := reasons.isEmpty, reasons, sharpeDelta, drawdownDelta, falsePositiveDelta,
    slippageDelta }

/-! ## Control plane -/

/-- A transition that the registry accepted. -/
structure Transition where
  versionId : String
  fromStatus : StrategyStatus
  toStatus : StrategyStatus
deriving DecidableEq

/-- The transition advances its version in the lifecycle. -/
def Transition.Forward (transition : Transition) : Prop := transition.toStatus ≠ .retired

instance (transition : Transition) : Decidable transition.Forward :=
  inferInstanceAs (Decidable (_ ≠ _))

/-- The shared registry with the transitions it has accepted so far. -/
structure ControlPlane where
  registry : StrategyRegistry := {}
  accepted : List Transition := []

namespace ControlPlane

/-- `registry.transition`. -/
def transition (versionId : String) (toStatus : StrategyStatus) (clock : ℕ → ℚ)
    (plane : ControlPlane) : Except String StrategyVersion × ControlPlane :=
  match plane.registry.transition versionId toStatus clock with
  | .error message => (.error message, plane)
  | .ok (strategy, registry) =>
      (.ok strategy,
        { registry
          accepted := plane.accepted ++
            (plane.registry.status versionId).toList.map (⟨versionId, ·, toStatus⟩) })

/-- `registry.register`. -/
def register (hashConfig : ConfigHash) (config : List (String × Value))
    (parentVersion : Option ℤ) (now : ℚ) (plane : ControlPlane) : StrategyVersion × ControlPlane :=
  let (strategy, registry) := plane.registry.register hashConfig config parentVersion now
  (strategy, { plane with registry })

/-- `registry.rollback`. -/
def rollback (clock : ℕ → ℚ) (plane : ControlPlane) : Option StrategyVersion × ControlPlane :=
  let (restored, registry) := plane.registry.rollback clock
  (restored, { plane with registry })

end ControlPlane

/-- `config.get(FieldName.STRATEGY) == strategy_name`. -/
def StrategyRecord.isOf (record : StrategyRecord) (strategyName : String) : Bool :=
  match record.strategy.config.lookup "strategy" with
  | none => false
  | some value => value.isText strategyName

/-- `find_by_strategy`. -/
def StrategyRegistry.findByStrategy (registry : StrategyRegistry) (strategyName : String) :
    Option StrategyRecord :=
  ((registry.records.map Prod.snd).filter (·.isOf strategyName)).argmax (·.strategy.version)

/-! ## Gate -/

structure PromotionDecision where
  versionId : String
  toStatus : StrategyStatus
  approved : Bool
  transitioned : Bool
  reason : String
  champion : ReplayMetrics
  candidate : ReplayMetrics
  verdict : RegressionVerdict

/-- `PromotionGate.evaluate`. -/
def PromotionGate.evaluate (sqrt : ℚ → ℚ) (format : DeltaFormat) (versionId : String)
    (championTrades candidateTrades : List TradeRecord) (toStatus : StrategyStatus)
    (clock : ℕ → ℚ) (plane : ControlPlane) : PromotionDecision × ControlPlane :=
  let champion := replay sqrt championTrades
  let candidate := replay sqrt candidateTrades
  let verdict := validate format champion candidate
  let decision (transitioned : Bool) (reason : String) : PromotionDecision :=
    { versionId, toStatus, approved := verdict.approved, transitioned, reason, champion, candidate,
      verdict }
  if !verdict.approved then
    (decision false ("rejected: " ++ "; ".intercalate verdict.reasons), plane)
  else
    match plane.transition versionId toStatus clock with
    | (.ok _, after) => (decision true ("promoted to " ++ toStatus.value), after)
    | (.error error, after) =>
        (decision false ("regression passed but transition blocked: " ++ error), after)

/-! ## Graduation -/

/-- `_graduate_strategy`, with or without a challenger store. -/
def graduateStrategy (hasStore graduateToCanary : Bool) (strategy : String) (clock : ℕ → ℚ)
    (plane : ControlPlane) : String × ControlPlane :=
  let stamped :=
    if hasStore then "record graduated" else "graduation record skipped — no challenger store"
  let status (part : String) := "; ".intercalate [stamped, part]
  if !graduateToCanary then
    (status "lifecycle unchanged (graduate-to-canary disabled)", plane)
  else
    match plane.registry.findByStrategy strategy with
    | none => (status "lifecycle unchanged — strategy not in registry", plane)
    | some record =>
        if record.status = .shadow then
          match plane.transition record.strategy.versionId .canary clock with
          | (.ok _, after) =>
              (status ("lifecycle SHADOW→CANARY (v" ++ toString record.strategy.version ++ ")"),
                after)
          | (.error _, after) => (status "lifecycle transition rejected", after)
        else (status ("lifecycle unchanged — already " ++ record.status.value), plane)

/-! ## Registration -/

/-- `registry.transition` through some stages, until one is rejected; those of a new version are
not. -/
def ControlPlane.advance (versionId : String) (clock : ℕ → ℚ) :
    List StrategyStatus → ControlPlane → ControlPlane
  | [], plane => plane
  | stage :: stages, plane =>
      match plane.transition versionId stage clock with
      | (.error _, after) => after
      | (.ok _, after) => after.advance versionId clock stages

/-- Register a strategy by its name and bring it through some stages. -/
def ControlPlane.registerStrategy (hashConfig : ConfigHash)
    (stages : List StrategyStatus) (clock : ℕ → ℚ) (strategyName : String)
    (plane : ControlPlane) : ControlPlane :=
  let (version, registered) :=
    plane.register hashConfig [("strategy", .str strategyName)] none (clock 0)
  registered.advance version.versionId clock stages

/-- `_ensure_lifecycle_registered` of a challenger that has not registered yet. -/
def ensureLifecycleRegistered (hashConfig : ConfigHash) (clock : ℕ → ℚ)
    (strategyName : String) (plane : ControlPlane) : ControlPlane :=
  if strategyName = "" then plane
  else if (plane.registry.findByStrategy strategyName).isSome then plane
  else plane.registerStrategy hashConfig [.backtested, .shadow] clock strategyName

/-- `_BASELINE_NAME`. -/
def baselineName : String := "baseline_momentum"

/-- `_TO_LIVE_STAGES`. -/
def toLiveStages : List StrategyStatus := [.backtested, .shadow, .canary, .live]

/-- Names of `STRATEGIES`. -/
def strategyNames : List String :=
  ["baseline_momentum", "strong_only", "confirmed_trend", "mean_reversion"]

/-- `_ensure_registry_seeded`. -/
def ensureRegistrySeeded (hashConfig : ConfigHash) (clock : ℕ → ℚ)
    (plane : ControlPlane) : ControlPlane :=
  let seeded :=
    if (plane.registry.findByStrategy baselineName).isSome then plane
    else plane.registerStrategy hashConfig toLiveStages clock baselineName
  strategyNames.foldl
    (fun plane name =>
      if name = baselineName ∨ (plane.registry.findByStrategy name).isSome then plane
      else plane.registerStrategy hashConfig [.backtested, .shadow] clock name) seeded

end TradingControl

/-!
# Advances of the lifecycle

A version advances through the gate after an approving verdict, by the graduation of a challenger
that was promoted, or in the call that has registered it.
-/

namespace TradingControl

open Python StrategyRegistry

/-! ## Runs -/

/-- A call of a component that works on the shared registry. -/
inductive ControlOp where
  | evaluate (versionId : String) (championTrades candidateTrades : List TradeRecord)
      (toStatus : StrategyStatus) (clock : ℕ → ℚ)
  /-- An approved challenger promotion is applied. -/
  | promote (hasStore graduateToCanary : Bool) (strategy : String) (clock : ℕ → ℚ)
  | startChallenger (strategyName : String) (clock : ℕ → ℚ)
  | seed (clock : ℕ → ℚ)
  | register (config : List (String × Value)) (parentVersion : Option ℤ) (now : ℚ)
  | rollback (clock : ℕ → ℚ)

variable (sqrt : ℚ → ℚ) (format : DeltaFormat) (hashConfig : ConfigHash)

def ControlOp.apply (plane : ControlPlane) : ControlOp → ControlPlane
  | .evaluate versionId championTrades candidateTrades toStatus clock =>
      (PromotionGate.evaluate sqrt format versionId championTrades candidateTrades toStatus clock
        plane).2
  | .promote hasStore graduateToCanary strategy clock =>
      (graduateStrategy hasStore graduateToCanary strategy clock plane).2
  | .startChallenger strategyName clock =>
      ensureLifecycleRegistered hashConfig clock strategyName plane
  | .seed clock => ensureRegistrySeeded hashConfig clock plane
  | .register config parentVersion now => (plane.register hashConfig config parentVersion now).2
  | .rollback clock => (plane.rollback clock).2

def ControlPlane.run (operations : List ControlOp) : ControlPlane :=
  operations.foldl (ControlOp.apply sqrt format hashConfig) {}

def ControlOp.performed (plane : ControlPlane) (operation : ControlOp) : List Transition :=
  (operation.apply sqrt format hashConfig plane).accepted.drop plane.accepted.length

/-- The call is an evaluation by the gate whose verdict approves. -/
def ControlOp.Approved : ControlOp → Prop
  | .evaluate _ championTrades candidateTrades _ _ =>
      (validate format (replay sqrt championTrades) (replay sqrt candidateTrades)).approved = true
  | _ => False

/-- What entitles a call to a transition. -/
inductive Warranted (plane : ControlPlane) : ControlOp → Transition → Prop
  | gate {versionId championTrades candidateTrades fromStatus toStatus clock}
      (approved : ControlOp.Approved sqrt format
        (.evaluate versionId championTrades candidateTrades toStatus clock)) :
      Warranted plane (.evaluate versionId championTrades candidateTrades toStatus clock)
        ⟨versionId, fromStatus, toStatus⟩
  | graduation {hasStore strategy clock record}
      (newest : plane.registry.findByStrategy strategy = some record) :
      Warranted plane (.promote hasStore true strategy clock)
        ⟨record.strategy.versionId, .shadow, .canary⟩
  | challenger {strategyName clock versionId fromStatus toStatus}
      (new : plane.registry.status versionId = none) (early : toStatus ∈ [.backtested, .shadow]) :
      Warranted plane (.startChallenger strategyName clock) ⟨versionId, fromStatus, toStatus⟩
  | candidate {clock versionId fromStatus toStatus}
      (new : plane.registry.status versionId = none) (early : toStatus ∈ [.backtested, .shadow]) :
      Warranted plane (.seed clock) ⟨versionId, fromStatus, toStatus⟩
  | baseline {clock versionId fromStatus toStatus}
      (new : plane.registry.status versionId = none)
      (absent : plane.registry.findByStrategy baselineName = none)
      (own : versionId = versionIdOf plane.registry.nextVersion
        (hashConfig [("strategy", .str baselineName)])) :
      Warranted plane (.seed clock) ⟨versionId, fromStatus, toStatus⟩

/-! ## Growth -/

/-- The registry stays well-formed and loses no version, and the transitions accepted meanwhile
have a property. -/
structure Grows (warrant : Transition → Prop) (before after : ControlPlane) : Prop where
  formed : before.registry.WellFormed → after.registry.WellFormed
  known : ∀ versionId, after.registry.status versionId = none →
    before.registry.status versionId = none
  accepted : ∃ new, after.accepted = before.accepted ++ new ∧ ∀ transition ∈ new, warrant transition

namespace Grows

variable {warrant stronger : Transition → Prop} {before middle after plane : ControlPlane}

theorem refl (plane : ControlPlane) : Grows warrant plane plane :=
  ⟨id, fun _ => id, [], (List.append_nil _).symm, fun _ member => absurd member List.not_mem_nil⟩

theorem trans (first : Grows warrant before middle) (second : Grows warrant middle after) :
    Grows warrant before after := by
  obtain ⟨early, isMiddle, warrantedEarly⟩ := first.accepted
  obtain ⟨late, isAfter, warrantedLate⟩ := second.accepted
  refine ⟨second.formed ∘ first.formed, fun versionId => first.known versionId ∘
    second.known versionId, early ++ late, ?_, fun transition member => ?_⟩
  · rw [isAfter, isMiddle, List.append_assoc]
  · rcases List.mem_append.mp member with inEarly | inLate
    · exact warrantedEarly transition inEarly
    · exact warrantedLate transition inLate

theorem mono (grows : Grows stronger before after)
    (implies : ∀ transition, stronger transition → warrant transition) :
    Grows warrant before after := by
  obtain ⟨new, isAfter, warranted⟩ := grows.accepted
  exact ⟨grows.formed, grows.known, new, isAfter,
    fun transition member => implies transition (warranted transition member)⟩

end Grows

section

variable {warrant : Transition → Prop} {plane : ControlPlane}

theorem status_setStatus_eq_none {registry : StrategyRegistry} {versionId other : String}
    {status : StrategyStatus} {now : ℚ} :
    (registry.setStatus versionId status now).status other = none ↔
      registry.status other = none := by
  rw [status_setStatus]
  split_ifs
  · exact Option.map_eq_none_iff
  · rfl

theorem status_transition_eq_none {registry after : StrategyRegistry} {versionId other : String}
    {toStatus : StrategyStatus} {clock : ℕ → ℚ} {strategy : StrategyVersion}
    (accepted : registry.transition versionId toStatus clock = .ok (strategy, after))
    (unknown : after.status other = none) : registry.status other = none := by
  obtain ⟨held, -, -, ⟨-, rfl⟩ | ⟨-, rfl⟩⟩ := transition_cases accepted
  · have superseded : (registry.supersedeCurrentLive (clock 0)).status other = none :=
      status_setStatus_eq_none.mp unknown
    rw [supersedeCurrentLive] at superseded
    cases current : registry.liveStack.getLast? with
    | none => rwa [current] at superseded
    | some currentId =>
        rw [current] at superseded
        exact status_setStatus_eq_none.mp superseded
  · exact status_setStatus_eq_none.mp unknown

/-- What an accepted transition is recorded as. -/
theorem grows_transition (plane : ControlPlane) (versionId : String) (toStatus : StrategyStatus)
    (clock : ℕ → ℚ) :
    Grows (fun transition => transition.versionId = versionId ∧ transition.toStatus = toStatus ∧
        plane.registry.status versionId = some transition.fromStatus)
      plane (plane.transition versionId toStatus clock).2 := by
  rw [ControlPlane.transition]
  cases outcome : plane.registry.transition versionId toStatus clock with
  | error message => exact Grows.refl plane
  | ok result =>
      obtain ⟨strategy, registry⟩ := result
      refine ⟨fun formed => wellFormed_transition formed outcome,
        fun other => status_transition_eq_none outcome, _, rfl, fun transition member => ?_⟩
      obtain ⟨held, status, rfl⟩ := List.mem_map.mp member
      exact ⟨rfl, rfl, Option.mem_toList.mp status⟩

theorem grows_register (config : List (String × Value)) (parentVersion : Option ℤ) (now : ℚ) :
    Grows warrant plane (plane.register hashConfig config parentVersion now).2 where
  formed formed := wellFormed_register formed hashConfig config parentVersion now
  known versionId unknown := by
    have absent : (plane.registry.register hashConfig config parentVersion now).2.get versionId =
        none := Option.map_eq_none_iff.mp unknown
    rw [StrategyRegistry.get, StrategyRegistry.register] at absent
    dsimp only at absent
    rw [Dict.lookup_set] at absent
    split_ifs at absent with own
    exact Option.map_eq_none_iff.mpr absent
  accepted := ⟨[], (List.append_nil _).symm, fun _ member => absurd member List.not_mem_nil⟩

theorem grows_rollback (clock : ℕ → ℚ) : Grows warrant plane (plane.rollback clock).2 where
  formed formed := wellFormed_rollback formed clock
  known versionId unknown := by
    have absent : (plane.registry.rollback clock).2.status versionId = none := unknown
    rcases rollback_cases clock plane.registry with
      ⟨-, same⟩ | ⟨current, -, ⟨-, after⟩ | ⟨previous, -, after⟩⟩
    · rwa [same] at absent
    · rw [after] at absent
      exact status_setStatus_eq_none.mp absent
    · rw [after] at absent
      have retired : (plane.registry.setStatus current .retired (clock 0)).status versionId =
          none := status_setStatus_eq_none.mp absent
      exact status_setStatus_eq_none.mp retired
  accepted := ⟨[], (List.append_nil _).symm, fun _ member => absurd member List.not_mem_nil⟩

/-! ## Registrations -/

theorem grows_advance (plane : ControlPlane) (versionId : String) (clock : ℕ → ℚ)
    (stages : List StrategyStatus) :
    Grows (fun transition => transition.versionId = versionId ∧ transition.toStatus ∈ stages) plane
      (plane.advance versionId clock stages) := by
  induction stages generalizing plane with
  | nil => exact Grows.refl plane
  | cons stage stages induction =>
      have first : Grows (fun transition =>
          transition.versionId = versionId ∧ transition.toStatus ∈ stage :: stages) plane
          (plane.transition versionId stage clock).2 :=
        (grows_transition plane versionId stage clock).mono
          fun transition ⟨own, reached, _⟩ => ⟨own, reached ▸ List.mem_cons_self⟩
      rw [ControlPlane.advance]
      split
      · next after outcome =>
          rw [outcome] at first
          exact first
      · next after outcome =>
          rw [outcome] at first
          exact first.trans ((induction after).mono fun transition ⟨own, later⟩ =>
            ⟨own, List.mem_cons_of_mem _ later⟩)

theorem status_versionIdOf (formed : plane.registry.WellFormed) (configHash : String) :
    plane.registry.status (versionIdOf plane.registry.nextVersion configHash) = none := by
  cases found : plane.registry.status (versionIdOf plane.registry.nextVersion configHash) with
  | none => rfl
  | some held =>
      exact absurd rfl (formed.ne_unused configHash found)

theorem grows_registerStrategy (formed : plane.registry.WellFormed) (stages : List StrategyStatus)
    (clock : ℕ → ℚ) (strategyName : String) :
    Grows (fun transition =>
        transition.versionId = versionIdOf plane.registry.nextVersion
          (hashConfig [("strategy", .str strategyName)]) ∧
        plane.registry.status transition.versionId = none ∧ transition.toStatus ∈ stages)
      plane (plane.registerStrategy hashConfig stages clock strategyName) := by
  refine (grows_register hashConfig [("strategy", .str strategyName)] none (clock 0)).trans ?_
  refine (grows_advance _ _ clock stages).mono fun transition ⟨own, reached⟩ => ?_
  refine ⟨own, ?_, reached⟩
  rw [own]
  exact status_versionIdOf formed _

theorem grows_ensureLifecycleRegistered (formed : plane.registry.WellFormed) (clock : ℕ → ℚ)
    (strategyName : String) :
    Grows (Warranted sqrt format hashConfig plane (.startChallenger strategyName clock)) plane
      (ensureLifecycleRegistered hashConfig clock strategyName plane) := by
  rw [ensureLifecycleRegistered]
  split_ifs
  · exact Grows.refl plane
  · exact Grows.refl plane
  · exact (grows_registerStrategy hashConfig formed _ clock strategyName).mono
      fun transition ⟨_, new, early⟩ => .challenger new early

theorem grows_ensureRegistrySeeded (formed : plane.registry.WellFormed) (clock : ℕ → ℚ) :
    Grows (Warranted sqrt format hashConfig plane (.seed clock)) plane
      (ensureRegistrySeeded hashConfig clock plane) := by
  have candidates : ∀ (names : List String) (between : ControlPlane),
      Grows (Warranted sqrt format hashConfig plane (.seed clock)) plane between →
        Grows (Warranted sqrt format hashConfig plane (.seed clock)) plane (names.foldl
          (fun plane name =>
            if name = baselineName ∨ (plane.registry.findByStrategy name).isSome then plane
            else plane.registerStrategy hashConfig [.backtested, .shadow] clock name) between) := by
    intro names
    induction names with
    | nil => exact fun between grows => grows
    | cons name names induction =>
        intro between grows
        refine induction _ ?_
        dsimp only
        split_ifs
        · exact grows
        · refine grows.trans ?_
          refine (grows_registerStrategy hashConfig (grows.formed formed) _ clock name).mono
            fun transition ⟨_, new, early⟩ => ?_
          exact .candidate (grows.known transition.versionId new) early
  rw [ensureRegistrySeeded]
  refine candidates strategyNames _ ?_
  split_ifs with registered
  · exact Grows.refl plane
  · refine (grows_registerStrategy hashConfig formed toLiveStages clock baselineName).mono
      fun transition ⟨own, new, _⟩ => ?_
    exact .baseline new (Option.not_isSome_iff_eq_none.mp registered) own

/-! ## Calls -/

theorem grows_evaluate (versionId : String) (championTrades candidateTrades : List TradeRecord)
    (toStatus : StrategyStatus) (clock : ℕ → ℚ) :
    Grows (Warranted sqrt format hashConfig plane
        (.evaluate versionId championTrades candidateTrades toStatus clock)) plane
      (PromotionGate.evaluate sqrt format versionId championTrades candidateTrades toStatus clock
        plane).2 := by
  rw [PromotionGate.evaluate]
  dsimp only
  split_ifs with rejected
  · exact Grows.refl plane
  · have approved : ControlOp.Approved sqrt format
        (.evaluate versionId championTrades candidateTrades toStatus clock) := by
      simpa [ControlOp.Approved] using rejected
    have grows : Grows (Warranted sqrt format hashConfig plane
        (.evaluate versionId championTrades candidateTrades toStatus clock)) plane
        (plane.transition versionId toStatus clock).2 := by
      refine (grows_transition plane versionId toStatus clock).mono ?_
      rintro ⟨_, fromStatus, _⟩ ⟨rfl, rfl, _⟩
      exact .gate approved
    split
    · next after outcome =>
        rw [outcome] at grows
        exact grows
    · next after outcome =>
        rw [outcome] at grows
        exact grows

theorem mem_records_of_findByStrategy {registry : StrategyRegistry} {strategy : String}
    {record : StrategyRecord} (newest : registry.findByStrategy strategy = some record) :
    ∃ item ∈ registry.records, item.2 = record := by
  have matching := (List.mem_filter.mp (List.argmax_mem newest)).1
  exact List.mem_map.mp matching

theorem grows_graduateStrategy (formed : plane.registry.WellFormed)
    (hasStore graduateToCanary : Bool) (strategy : String) (clock : ℕ → ℚ) :
    Grows (Warranted sqrt format hashConfig plane
        (.promote hasStore graduateToCanary strategy clock)) plane
      (graduateStrategy hasStore graduateToCanary strategy clock plane).2 := by
  cases graduateToCanary with
  | false => exact Grows.refl plane
  | true =>
      simp only [graduateStrategy, Bool.not_true, Bool.false_eq_true, if_false]
      cases newest : plane.registry.findByStrategy strategy with
      | none => exact Grows.refl plane
      | some record =>
          by_cases shadow : record.status = .shadow
          · simp only [if_pos shadow]
            obtain ⟨item, member, rfl⟩ := mem_records_of_findByStrategy newest
            have status : plane.registry.status item.2.strategy.versionId = some .shadow := by
              have known : plane.registry.get item.1 = some item.2 :=
                Dict.lookup_of_mem formed.distinct member
              rw [(formed.keyed item member).1, StrategyRegistry.status, known, Option.map_some,
                shadow]
            have grows : Grows (Warranted sqrt format hashConfig plane
                (.promote hasStore true strategy clock)) plane
                (plane.transition item.2.strategy.versionId .canary clock).2 := by
              refine (grows_transition plane item.2.strategy.versionId .canary clock).mono ?_
              rintro ⟨_, fromStatus, _⟩ ⟨rfl, rfl, held⟩
              rw [status] at held
              cases held
              exact .graduation newest
            split
            · next after outcome =>
                rw [outcome] at grows
                exact grows
            · next after outcome =>
                rw [outcome] at grows
                exact grows
          · simp only [if_neg shadow]
            exact Grows.refl plane

theorem grows_apply (formed : plane.registry.WellFormed) (operation : ControlOp) :
    Grows (Warranted sqrt format hashConfig plane operation) plane
      (operation.apply sqrt format hashConfig plane) := by
  cases operation with
  | evaluate versionId championTrades candidateTrades toStatus clock =>
      exact grows_evaluate sqrt format hashConfig versionId championTrades candidateTrades toStatus
        clock
  | promote hasStore graduateToCanary strategy clock =>
      exact grows_graduateStrategy sqrt format hashConfig formed hasStore graduateToCanary strategy
        clock
  | startChallenger strategyName clock =>
      exact grows_ensureLifecycleRegistered sqrt format hashConfig formed clock strategyName
  | seed clock => exact grows_ensureRegistrySeeded sqrt format hashConfig formed clock
  | register config parentVersion now =>
      exact grows_register hashConfig config parentVersion now
  | rollback clock => exact grows_rollback clock

end

theorem formed_run (operations : List ControlOp) :
    (ControlPlane.run sqrt format hashConfig operations).registry.WellFormed := by
  induction operations using List.reverseRecOn with
  | nil => exact wellFormed_empty
  | append_singleton operations operation induction =>
      rw [ControlPlane.run, List.foldl_append]
      exact (grows_apply sqrt format hashConfig induction operation).formed induction

/-! ## Advances -/

/-- Only the gate advances versions, after an approving verdict. -/
def OnlyGateAdvances (operations : List ControlOp) : Prop :=
  ∀ before operation after, operations = before ++ operation :: after →
    ∀ transition ∈ operation.performed sqrt format hashConfig
      (ControlPlane.run sqrt format hashConfig before),
      transition.Forward → operation.Approved sqrt format

/-- Every transition of a run is warranted: the gate's by its verdict, the graduation's by an
applied promotion, and those of a registration by the version being new. -/
theorem transitions_warranted (before : List ControlOp) (operation : ControlOp)
    (transition : Transition)
    (performed : transition ∈ operation.performed sqrt format hashConfig
      (ControlPlane.run sqrt format hashConfig before)) :
    Warranted sqrt format hashConfig (ControlPlane.run sqrt format hashConfig before) operation
      transition := by
  have formed := formed_run sqrt format hashConfig before
  obtain ⟨new, isAfter, warranted⟩ :=
    (grows_apply sqrt format hashConfig formed operation).accepted
  rw [ControlOp.performed, isAfter, List.drop_left] at performed
  exact warranted transition performed

/-- Ten trades that gained the same. -/
def steadyTrades : List TradeRecord :=
  List.replicate 10 { pnl := some 1, pnlPercent := some 1, overallScore := some 1 }

theorem canary_warranted :
    Warranted (fun _ => 0) ⟨fun _ => "", fun _ => "", fun _ => ""⟩ (fun _ => "")
      (ControlPlane.run (fun _ => 0) ⟨fun _ => "", fun _ => "", fun _ => ""⟩ (fun _ => "")
        [.startChallenger "strong_only" fun _ => 0])
      (.evaluate "v1-" [] steadyTrades .canary fun _ => 0) ⟨"v1-", .shadow, .canary⟩ :=
  transitions_warranted (fun _ => 0) ⟨fun _ => "", fun _ => "", fun _ => ""⟩ (fun _ => "")
    [.startChallenger "strong_only" fun _ => 0]
    (.evaluate "v1-" [] steadyTrades .canary fun _ => 0) ⟨"v1-", .shadow, .canary⟩
    (by decide +kernel)

/-- The challenger of a strategy starts and its promotion is applied. -/
def promotedChallenger : List ControlOp :=
  [.startChallenger "strong_only" fun _ => 0, .promote true true "strong_only" fun _ => 0]

theorem graduation_bypasses_gate :
    ¬OnlyGateAdvances (fun _ => 0) ⟨fun _ => "", fun _ => "", fun _ => ""⟩ (fun _ => "")
      promotedChallenger := by
  intro gated
  refine gated [.startChallenger "strong_only" fun _ => 0]
    (.promote true true "strong_only" fun _ => 0) [] rfl ⟨"v1-", .shadow, .canary⟩ ?_ ?_
  · decide +kernel
  · decide

end TradingControl
