import Mathlib.Tactic.Linarith
import TradingControl.Constants
import TradingControl.Strategy.Registry

/-!
# Circuit breaker

A check that finds a limit breached sets the kill switch and rolls the live strategy back.  The
check keeps no record of an earlier trip, so every check of a lasting breach rolls back once more.
-/

namespace TradingControl

open StrategyRegistry

/-! ## Decision -/

/-- `CIRCUIT_BREAKER_MAX_DRAWDOWN_PCT`. -/
def maxDrawdownPct : ℚ := 15 / 100

/-- `CIRCUIT_BREAKER_MAX_CONSECUTIVE_FAILURES`. -/
def maxConsecutiveFailures : ℤ := 5

/-- `CIRCUIT_BREAKER_MAX_DIVERGENCE`. -/
def maxDivergence : ℚ := 1 / 2

/-- `CIRCUIT_BREAKER_MAX_LATENCY_MS`. -/
def maxLatencyMs : ℚ := 5000

/-- Live health signals. -/
structure BreakerInputs where
  drawdownPct : ℚ := 0
  consecutiveFailures : ℤ := 0
  divergenceScore : ℚ := 0
  latencyMs : ℚ := 0

structure TripDecision where
  tripped : Bool
  reasons : List String := []

/-- Texts of numbers in the reasons of a trip. -/
structure ReasonFormat where
  /-- `:.0%`. -/
  percent : ℚ → String
  /-- `:.2f`. -/
  hundredths : ℚ → String
  /-- `:.0f`. -/
  whole : ℚ → String

def tripReasons (format : ReasonFormat) (inputs : BreakerInputs) : List String :=
  (if inputs.drawdownPct ≥ maxDrawdownPct then
    ["drawdown " ++ format.percent inputs.drawdownPct ++ " >= " ++ format.percent maxDrawdownPct]
  else []) ++
  (if inputs.consecutiveFailures ≥ maxConsecutiveFailures then
    [toString inputs.consecutiveFailures ++ " consecutive failures >= " ++
      toString maxConsecutiveFailures]
  else []) ++
  (if inputs.divergenceScore ≥ maxDivergence then
    ["divergence " ++ format.hundredths inputs.divergenceScore ++ " >= 0.5"]
  else []) ++
  if inputs.latencyMs ≥ maxLatencyMs then
    ["latency " ++ format.whole inputs.latencyMs ++ "ms >= " ++ format.whole maxLatencyMs ++ "ms"]
  else []

/-- `evaluate`. -/
def evaluate (format : ReasonFormat) (inputs : BreakerInputs) : TripDecision where
  tripped := !(tripReasons format inputs).isEmpty
  reasons := tripReasons format inputs

/-- The breaker trips on a signal at or past its limit, and on nothing else. -/
theorem evaluate_tripped_iff (format : ReasonFormat) (inputs : BreakerInputs) :
    (evaluate format inputs).tripped = true ↔
      maxDrawdownPct ≤ inputs.drawdownPct ∨ maxConsecutiveFailures ≤ inputs.consecutiveFailures ∨
        maxDivergence ≤ inputs.divergenceScore ∨ maxLatencyMs ≤ inputs.latencyMs := by
  by_cases drawdown : maxDrawdownPct ≤ inputs.drawdownPct <;>
  by_cases failures : maxConsecutiveFailures ≤ inputs.consecutiveFailures <;>
  by_cases divergence : maxDivergence ≤ inputs.divergenceScore <;>
  by_cases latency : maxLatencyMs ≤ inputs.latencyMs <;>
  simp [evaluate, tripReasons, drawdown, failures, divergence, latency]

/-! ## Trips -/

/-- Redis keys and the registry that a trip writes. -/
structure BreakerWorld where
  killSwitch : Option String := none
  killSwitchUpdatedAt : Option String := none
  registry : StrategyRegistry

/-- What the environment decides about one check. -/
structure TripChoice where
  killSwitchFails : Bool := false
  updatedAtFails : Bool := false
  nowText : String := "0.0"
  clock : ℕ → ℚ := fun _ => 0

/-- Redis answers both writes. -/
def TripChoice.Answered (choice : TripChoice) : Prop :=
  choice.killSwitchFails = false ∧ choice.updatedAtFails = false

instance (choice : TripChoice) : Decidable choice.Answered :=
  inferInstanceAs (Decidable (_ ∧ _))

inductive BreakerFailure where
  | redisError
deriving DecidableEq

/-- `CircuitBreaker.trip`. -/
def trip (choice : TripChoice) (world : BreakerWorld) : Except BreakerFailure Unit × BreakerWorld :=
  if choice.killSwitchFails then (.error .redisError, world)
  else
    let switched := { world with killSwitch := some "1" }
    if choice.updatedAtFails then (.error .redisError, switched)
    else
      (.ok (),
        { switched with
          killSwitchUpdatedAt := some choice.nowText
          registry := (world.registry.rollback choice.clock).2 })

/-- `CircuitBreaker.check`. -/
def check (format : ReasonFormat) (choice : TripChoice) (world : BreakerWorld)
    (inputs : BreakerInputs) : Except BreakerFailure TripDecision × BreakerWorld :=
  let decision := evaluate format inputs
  if decision.tripped then
    match trip choice world with
    | (.ok _, after) => (.ok decision, after)
    | (.error error, after) => (.error error, after)
  else (.ok decision, world)

/-! ## Guardian -/

/-- `_portfolio_drawdown_pct` of the realized profit of the day, `none` where it is unreadable. -/
def portfolioDrawdownPct : Option ℚ → ℚ
  | none => 0
  | some dailyPnl =>
      if dailyPnl ≥ 0 ∨ defaultPaperCash ≤ 0 then 0 else -dailyPnl / defaultPaperCash

/-- One pass of the guardian's loop through `_check_circuit_breaker`. -/
structure GuardianCheck where
  dailyPnl : Option ℚ
  choice : TripChoice := {}

/-- The loop swallows the exceptions of a check. -/
def GuardianCheck.run (format : ReasonFormat) (world : BreakerWorld) (guardian : GuardianCheck) :
    BreakerWorld :=
  (check format guardian.choice world
    { drawdownPct := portfolioDrawdownPct guardian.dailyPnl }).2

def guardianChecks (format : ReasonFormat) (world : BreakerWorld) (checks : List GuardianCheck) :
    BreakerWorld :=
  checks.foldl (GuardianCheck.run format) world

/-- The loss of the day is past the limit of the breaker. -/
def GuardianCheck.InBreach (guardian : GuardianCheck) : Prop :=
  maxDrawdownPct ≤ portfolioDrawdownPct guardian.dailyPnl

theorem GuardianCheck.inBreach_iff (guardian : GuardianCheck) :
    guardian.InBreach ↔ ∃ dailyPnl ≤ -15000, guardian.dailyPnl = some dailyPnl := by
  unfold InBreach portfolioDrawdownPct maxDrawdownPct defaultPaperCash
  cases guardian.dailyPnl with
  | none => simp
  | some dailyPnl =>
      simp only [Option.some.injEq, exists_eq_right']
      split_ifs with gain
      · norm_num at gain ⊢
        linarith
      · constructor
        · intro breach
          linarith
        · intro loss
          linarith

/-- A check in breach rolls back exactly when Redis answers. -/
theorem GuardianCheck.registry_run (format : ReasonFormat) (world : BreakerWorld)
    {guardian : GuardianCheck} (breach : guardian.InBreach) :
    (guardian.run format world).registry =
      if guardian.choice.Answered then (world.registry.rollback guardian.choice.clock).2
      else world.registry := by
  have tripped : (evaluate format
      { drawdownPct := portfolioDrawdownPct guardian.dailyPnl }).tripped = true := by
    rw [evaluate_tripped_iff]
    exact Or.inl breach
  obtain ⟨dailyPnl, killSwitchFails, updatedAtFails, nowText, clock⟩ := guardian
  rw [run, check, trip]
  rw [if_pos tripped]
  cases killSwitchFails with
  | true => simp [TripChoice.Answered]
  | false => cases updatedAtFails <;> simp [TripChoice.Answered]

/-- Checks in breach take versions off the stack, one at least as soon as Redis answers a check. -/
theorem liveStack_guardianChecks (format : ReasonFormat) (world : BreakerWorld)
    (checks : List GuardianCheck) (breach : ∀ guardian ∈ checks, guardian.InBreach) :
    (guardianChecks format world checks).registry.liveStack.Sublist world.registry.liveStack ∧
      ((∃ guardian ∈ checks, guardian.choice.Answered) →
        (guardianChecks format world checks).registry.liveStack.Sublist
          world.registry.liveStack.dropLast) := by
  induction checks generalizing world with
  | nil => exact ⟨List.Sublist.refl _, by simp⟩
  | cons first rest induction =>
      have next := first.registry_run format world (breach first (by simp))
      obtain ⟨later, laterDropped⟩ := induction (first.run format world)
        fun guardian member => breach guardian (List.mem_cons_of_mem _ member)
      rw [next] at later laterDropped
      change (guardianChecks format (first.run format world) rest).registry.liveStack.Sublist _ ∧ _
      by_cases answered : first.choice.Answered
      · rw [if_pos answered, StrategyRegistry.liveStack_rollback] at later
        exact ⟨later.trans (List.dropLast_sublist _), fun _ => later⟩
      · rw [if_neg answered] at later laterDropped
        refine ⟨later, ?_⟩
        rintro ⟨guardian, member, answeredLater⟩
        rcases List.mem_cons.mp member with rfl | member
        · exact absurd answeredLater answered
        · exact laterDropped ⟨guardian, member, answeredLater⟩

/-- A rollback of an empty stack changes nothing. -/
theorem registry_guardianChecks (world : BreakerWorld) (format : ReasonFormat)
    {checks : List GuardianCheck} (breach : ∀ guardian ∈ checks, guardian.InBreach)
    (idle : world.registry.liveStack = [] ∨ ∀ guardian ∈ checks, ¬guardian.choice.Answered) :
    (guardianChecks format world checks).registry = world.registry := by
  induction checks generalizing world with
  | nil => rfl
  | cons first rest induction =>
      have next := first.registry_run format world (breach first (by simp))
      have same : (first.run format world).registry = world.registry := by
        rw [next]
        split_ifs with answered
        · rcases idle with empty | silent
          · rw [StrategyRegistry.rollback, empty]
            rfl
          · exact absurd answered (silent first (by simp))
        · rfl
      have later := induction (first.run format world)
        (fun guardian member => breach guardian (List.mem_cons_of_mem _ member))
        (by
          rw [same]
          exact idle.imp_right fun silent guardian member =>
            silent guardian (List.mem_cons_of_mem _ member))
      rw [same] at later
      exact later

theorem wellFormed_guardianChecks (format : ReasonFormat) (world : BreakerWorld)
    {checks : List GuardianCheck} (breach : ∀ guardian ∈ checks, guardian.InBreach)
    (formed : world.registry.WellFormed) :
    (guardianChecks format world checks).registry.WellFormed := by
  induction checks generalizing world with
  | nil => exact formed
  | cons first rest induction =>
      refine induction (first.run format world)
        (fun guardian member => breach guardian (List.mem_cons_of_mem _ member)) ?_
      rw [first.registry_run format world (breach first (by simp))]
      split_ifs
      · exact wellFormed_rollback formed first.choice.clock
      · exact formed

/-! ## Rollbacks of a lasting breach -/

/-- The first of several checks rolls the live version back, and the others leave the live version
and the stage of every version as they are. -/
def RollsBackOnce (format : ReasonFormat) (world : BreakerWorld) (first : GuardianCheck)
    (rest : List GuardianCheck) : Prop :=
  let one := (first.run format world).registry
  let all := (guardianChecks format world (first :: rest)).registry
  one = (world.registry.rollback first.choice.clock).2 ∧ all.currentLive = one.currentLive ∧
    ∀ versionId, all.status versionId = one.status versionId

/-- A version that a rollback has restored is no longer live after further checks, once Redis answers
one of them. -/
theorem currentLive_ne_of_answered (format : ReasonFormat) (world : BreakerWorld)
    {rest : List GuardianCheck} (breach : ∀ guardian ∈ rest, guardian.InBreach)
    (formed : world.registry.WellFormed) {below : List String} {previousId : String}
    (stack : world.registry.liveStack = below ++ [previousId])
    (restored : world.registry.status previousId = some .live)
    (again : ∃ guardian ∈ rest, guardian.choice.Answered) :
    (guardianChecks format world rest).registry.currentLive ≠ world.registry.currentLive := by
  intro same
  obtain ⟨previous, previousLive⟩ := Option.isSome_iff_exists.mp (currentLive_isSome restored)
  rw [previousLive] at same
  have top := formed.currentLive previousLive
  have laterTop := List.mem_of_getLast?
    ((wellFormed_guardianChecks format world breach formed).currentLive same)
  have member := ((liveStack_guardianChecks format world rest breach).2 again).subset laterTop
  have distinct := formed.unrepeated
  rw [stack, List.nodup_append] at distinct
  rw [stack] at top member
  simp only [List.dropLast_concat, List.getLast?_append, List.getLast?_singleton,
    Option.some_or, Option.some.injEq] at member top
  exact distinct.2.2 _ member previousId (by simp) top.symm

/-- A lasting breach of a live strategy rolls back once exactly when Redis answers the first check,
and the live version has no predecessor or Redis answers no other check. -/
theorem rollsBackOnce_iff (format : ReasonFormat) (hashConfig : ConfigHash)
    (operations : List RegistryOp) (world : BreakerWorld)
    (reached : world.registry = StrategyRegistry.run hashConfig operations)
    (live : world.registry.currentLive.isSome) (first : GuardianCheck)
    (rest : List GuardianCheck) (breach : ∀ guardian ∈ first :: rest, guardian.InBreach) :
    RollsBackOnce format world first rest ↔ first.choice.Answered ∧
      (world.registry.liveStack.length = 1 ∨
        ∀ guardian ∈ rest, ¬guardian.choice.Answered) := by
  have formed : world.registry.WellFormed := by
    rw [reached]
    exact StrategyRegistry.wellFormed_run hashConfig operations
  obtain ⟨strategy, current⟩ := Option.isSome_iff_exists.mp live
  have top := formed.currentLive current
  obtain ⟨lower, stack⟩ : ∃ lower, world.registry.liveStack = lower ++ [strategy.versionId] :=
    ⟨_, (List.dropLast_append_getLast? _ top).symm⟩
  have next := first.registry_run format world (breach first (by simp))
  have breachLater : ∀ guardian ∈ rest, guardian.InBreach :=
    fun guardian member => breach guardian (List.mem_cons_of_mem _ member)
  have lowerStack : (world.registry.rollback first.choice.clock).2.liveStack = lower := by
    rw [StrategyRegistry.liveStack_rollback, stack]
    simp
  unfold RollsBackOnce
  dsimp only
  change _ ∧ (guardianChecks format (first.run format world) rest).registry.currentLive = _ ∧
    (∀ versionId, (guardianChecks format (first.run format world) rest).registry.status versionId =
      _) ↔ _
  by_cases answered : first.choice.Answered
  · rw [if_pos answered] at next
    constructor
    · rintro ⟨-, same, -⟩
      refine ⟨answered, ?_⟩
      by_contra repeated
      rw [not_or] at repeated
      obtain ⟨deep, again⟩ := repeated
      push Not at again
      obtain ⟨below, previousId, rfl⟩ : ∃ below previousId, lower = below ++ [previousId] := by
        rcases List.eq_nil_or_concat lower with rfl | ⟨below, previousId, concat⟩
        · simp [stack] at deep
        · exact ⟨below, previousId, concat.trans (List.concat_eq_append ..)⟩
      have restored : (world.registry.rollback first.choice.clock).2.status previousId =
          some .live := by
        refine status_rollback formed first.choice.clock ?_
        rw [stack]
        simp
      have formedOnce := wellFormed_rollback formed first.choice.clock
      rw [← next] at formedOnce lowerStack restored
      exact currentLive_ne_of_answered format _ breachLater formedOnce lowerStack restored again
        same
    · rintro ⟨-, idle⟩
      have unchanged := registry_guardianChecks (first.run format world) format breachLater
        (by
          rw [next, lowerStack]
          refine idle.imp_left fun single => ?_
          rw [stack] at single
          simpa using single)
      rw [unchanged]
      exact ⟨next, rfl, fun _ => rfl⟩
  · rw [if_neg answered] at next
    refine ⟨fun once => ?_, fun safe => absurd safe.1 answered⟩
    have heights := congrArg StrategyRegistry.liveStack (next.symm.trans once.1)
    rw [lowerStack, stack] at heights
    simp at heights

/-- Register the next version and take it through every stage. -/
def promote (version : ℕ) : List RegistryOp :=
  .register [] none 0 ::
    [StrategyStatus.backtested, .shadow, .canary, .live].map fun stage =>
      .transition (versionIdOf version "0") stage fun _ => 0

/-- A registry after some promotions, with the same hash for every configuration. -/
def promoted (versions : List ℕ) : StrategyRegistry :=
  run (fun _ => "0") (versions.flatMap promote)

theorem promoted_eq (versions : List ℕ) :
    promoted versions = run (fun _ => "0") (versions.flatMap promote) := by
  unfold promoted
  exact rfl

/-- Texts for the examples. -/
def plainReasons : ReasonFormat where
  percent _ := "0%"
  hundredths _ := "0.00"
  whole _ := "0"

/-- A day that has lost a fifth of the capital. -/
def lossCheck : GuardianCheck where
  dailyPnl := some (-20000)

theorem lossCheck_inBreach : lossCheck.InBreach := by
  rw [GuardianCheck.inBreach_iff]
  exact ⟨-20000, by norm_num, rfl⟩

theorem rollsBackOnce_firstVersion :
    RollsBackOnce plainReasons { registry := promoted [1] } lossCheck [lossCheck, lossCheck] := by
  refine (rollsBackOnce_iff plainReasons (fun _ => "0") ([1].flatMap promote)
    { registry := promoted [1] } (promoted_eq _) (by decide +kernel) lossCheck
    [lossCheck, lossCheck] (by simp [lossCheck_inBreach])).mpr ⟨by decide, Or.inl ?_⟩
  decide +kernel

/-- The second check of a breach demotes the version that the first one has restored. -/
theorem rollsBackTwice :
    ¬∀ (format : ReasonFormat) (hashConfig : ConfigHash) (operations : List RegistryOp)
      (world : BreakerWorld), world.registry = run hashConfig operations →
      world.registry.currentLive.isSome → ∀ (first : GuardianCheck) (rest : List GuardianCheck),
        (∀ guardian ∈ first :: rest, guardian.InBreach) →
          RollsBackOnce format world first rest := by
  intro once
  have same := (once plainReasons (fun _ => "0") ([1, 2, 3].flatMap promote)
    { registry := promoted [1, 2, 3] } (promoted_eq _) (by decide +kernel) lossCheck [lossCheck]
    (by simp [lossCheck_inBreach])).2.1
  have versions := congrArg (Option.map (·.version)) same
  revert versions
  decide +kernel

end TradingControl
