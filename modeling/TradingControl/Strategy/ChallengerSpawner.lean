import Mathlib.Data.List.Induction
import TradingControl.Effects.History
import TradingControl.Python.Reference

/-!
# Challenger spawning

A call of `spawn` looks at the fleet, starts a challenger and appends it to the fleet.  It gives up
control only while it waits for the start, so it is split there: what it does before the wait is one
step, what it does after it another, and the steps of other calls come in between.
-/

namespace TradingControl.ChallengerSpawner

open Python

/-- `MAX_CONCURRENT_CHALLENGERS`. -/
def maxConcurrentChallengers : ℕ := 3

/-- `ChallengerAgent.DEFAULT_MAX_FILLS`. -/
def defaultMaxFills : ℤ := 20

/-! ## The fleet -/

/-- A configuration, as the caller passes it. -/
abbrev Config := Dict String Value

/-- A `ChallengerAgent`. -/
structure Challenger where
  challengerId : String
  instanceId : String
  config : Config
  maxFills : ℤ
  running : Bool

/-- `consumer`, the name the challenger reads its streams under. -/
def Challenger.consumer (challenger : Challenger) : String :=
  "challenger-" ++ challenger.challengerId

/-- What `app.state.agents` holds. -/
inductive Agent where
  | challenger (challenger : Challenger)
  | other (name : String)

/-- `_running_challengers`. -/
def runningChallengers (agents : List Agent) : List Challenger :=
  agents.filterMap fun
    | .challenger challenger => if challenger.running then some challenger else none
    | .other _ => none

variable (runtime : Runtime)

/-- `_strategy_of`. -/
def strategyOf (config : Option Config) : String :=
  runtime.str (Value.orElse ((config.getD []).lookup "strategy") (.str ""))

/-! ## One call -/

/-- What `spawn` returns, but for its time stamp. -/
inductive Answer where
  | described (challengerId instanceId consumer : String) (maxFills : ℤ) (status : String)
  | refused (reason : String)
deriving DecidableEq

def Challenger.describe (challenger : Challenger) (status : String) : Answer :=
  .described challenger.challengerId challenger.instanceId challenger.consumer challenger.maxFills
    status

/-- Refusal for want of room. -/
def refuseCapacity (running : ℕ) : Answer :=
  .refused s!"{running} challengers already running (cap {maxConcurrentChallengers})"

/-- Arguments of a call. -/
structure Arguments where
  challengerConfig : Option Config := none
  maxFills : Option ℤ := none

/-- `int(max_fills or ChallengerAgent.DEFAULT_MAX_FILLS)`. -/
def Arguments.resolvedFills (arguments : Arguments) : ℤ :=
  match arguments.maxFills with
  | none => defaultMaxFills
  | some fills => if fills = 0 then defaultMaxFills else fills

/-- `ChallengerAgent(...)`, with the name it draws. -/
def construct (arguments : Arguments) (challengerId : String) : Challenger where
  challengerId
  instanceId := challengerId
  config := arguments.challengerConfig.getD []
  maxFills := arguments.resolvedFills
  running := false

/-- A running challenger of the strategy, unless the strategy has no name. -/
def existing (agents : List Agent) (strategy : String) : Option Challenger :=
  if strategy = "" then none
  else (runningChallengers agents).find? fun challenger =>
    strategyOf runtime (some challenger.config) = strategy

/-- How a call stands. -/
inductive Call where
  | waiting
  /-- Waits for `challenger.start()`. -/
  | starting (challenger : Challenger)
  | returned (answer : Answer)
  | raised (error : String)

/-- `spawn`, up to its wait. -/
def beginSpawn (agents : List Agent) (arguments : Arguments) (challengerId : String) : Call :=
  match existing runtime agents (strategyOf runtime arguments.challengerConfig) with
  | some challenger => .returned (challenger.describe "already_running")
  | none =>
      if maxConcurrentChallengers ≤ (runningChallengers agents).length then
        .returned (refuseCapacity (runningChallengers agents).length)
      else .starting (construct arguments challengerId)

/-- The challenger once it is started; the database may give its instance a name. -/
def Challenger.started (challenger : Challenger) (instanceId : Option String) : Challenger :=
  { challenger with
    instanceId := instanceId.getD challenger.instanceId
    running := true }

/-! ## Interleaved calls -/

/-- The fleet and the calls. -/
structure System (ι : Type) where
  agents : List Agent
  call : ι → Call

/-- A call runs from one wait to the next. -/
inductive Event (ι : Type) where
  /-- The call begins; the challenger it constructs draws its name. -/
  | begun (i : ι) (challengerId : String)
  /-- `challenger.start()` returns. -/
  | started (i : ι) (instanceId : Option String)
  /-- `challenger.start()` raises. -/
  | failed (i : ι) (error : String)
deriving DecidableEq

namespace System

variable {ι : Type} [DecidableEq ι] (arguments : ι → Arguments) (system : System ι)

/-- No call has begun and no agent is a challenger. -/
def initial (names : List String) : System ι where
  agents := names.map .other
  call _ := .waiting

def step (event : Event ι) : System ι :=
  match event with
  | .begun i challengerId =>
      match system.call i with
      | .waiting => { system with
          call := Function.update system.call i
            (beginSpawn runtime system.agents (arguments i) challengerId) }
      | _ => system
  | .started i instanceId =>
      match system.call i with
      | .starting challenger =>
          let started := challenger.started instanceId
          { agents := system.agents ++ [.challenger started]
            call := Function.update system.call i (.returned (started.describe "spawned")) }
      | _ => system
  | .failed i error =>
      match system.call i with
      | .starting _ => { system with call := Function.update system.call i (.raised error) }
      | _ => system

/-- State after a schedule. -/
def run (names : List String) (schedule : List (Event ι)) : System ι :=
  schedule.foldl (step runtime arguments) (initial names)

/-- Every call that has begun has returned. -/
def Settled : Prop := ∀ i challenger, system.call i ≠ .starting challenger

/-! ## The limits -/

end System

/-- One running challenger for each named strategy, and no more than the cap. -/
structure Bounded (agents : List Agent) : Prop where
  single : ∀ strategy, strategy ≠ "" →
    (runningChallengers agents).countP
      (fun challenger => strategyOf runtime (some challenger.config) = strategy) ≤ 1
  capped : (runningChallengers agents).length ≤ maxConcurrentChallengers

/-- The fleet has room for a challenger of the configuration: `spawn` would still start it. -/
structure HasRoom (agents : List Agent) (config : Config) : Prop where
  unheld : existing runtime agents (strategyOf runtime (some config)) = none
  below : (runningChallengers agents).length < maxConcurrentChallengers

variable {runtime}

theorem runningChallengers_append (agents : List Agent) (challenger : Challenger)
    (running : challenger.running = true) :
    runningChallengers (agents ++ [.challenger challenger]) =
      runningChallengers agents ++ [challenger] := by
  simp [runningChallengers, running]

theorem existing_eq_none_iff {agents : List Agent} {strategy : String} (named : strategy ≠ "") :
    existing runtime agents strategy = none ↔
      (runningChallengers agents).countP
        (fun challenger => strategyOf runtime (some challenger.config) = strategy) = 0 := by
  rw [existing, if_neg named, List.find?_eq_none, List.countP_eq_zero]

/-- A challenger that joins keeps the limits exactly if there is room for it. -/
theorem bounded_append_iff {agents : List Agent} {challenger : Challenger}
    (running : challenger.running = true) :
    Bounded runtime (agents ++ [.challenger challenger]) ↔
      Bounded runtime agents ∧ HasRoom runtime agents challenger.config := by
  have joined := runningChallengers_append agents challenger running
  constructor
  · rintro ⟨single, capped⟩
    rw [joined] at single
    rw [joined, List.length_append, List.length_singleton] at capped
    refine ⟨⟨fun strategy named => ?_, by omega⟩, ?_, by omega⟩
    · have bound := single strategy named
      rw [List.countP_append] at bound
      omega
    · by_cases named : strategyOf runtime (some challenger.config) = ""
      · rw [named]
        rfl
      · have bound := single _ named
        rw [List.countP_append, List.countP_singleton, if_pos (decide_eq_true rfl)] at bound
        rw [existing_eq_none_iff named]
        omega
  · rintro ⟨⟨single, capped⟩, unheld, below⟩
    constructor
    · intro strategy named
      rw [joined, List.countP_append, List.countP_singleton]
      by_cases same : strategyOf runtime (some challenger.config) = strategy
      · subst same
        rw [(existing_eq_none_iff named).mp unheld, if_pos (decide_eq_true rfl)]
      · rw [if_neg (by simpa using same), Nat.add_zero]
        exact single strategy named
    · rw [joined, List.length_append, List.length_singleton]
      exact below

namespace System

variable {ι : Type} [DecidableEq ι] {arguments : ι → Arguments} {system : System ι}

/-- A start that returns finds room in the fleet for its challenger. -/
def FindsRoom (runtime : Runtime) (system : System ι) : Event ι → Prop
  | .started i _ =>
      ∀ challenger, system.call i = .starting challenger →
        HasRoom runtime system.agents challenger.config
  | _ => True

/-- One event keeps the limits exactly if a start that returns finds room. -/
theorem bounded_step_iff (event : Event ι) :
    Bounded runtime (system.step runtime arguments event).agents ↔
      Bounded runtime system.agents ∧ system.FindsRoom runtime event := by
  cases event with
  | begun i challengerId =>
      have same : (system.step runtime arguments (.begun i challengerId)).agents =
          system.agents := by
        rw [step]
        split <;> rfl
      rw [same]
      exact (and_iff_left trivial).symm
  | failed i error =>
      have same : (system.step runtime arguments (.failed i error)).agents = system.agents := by
        rw [step]
        split <;> rfl
      rw [same]
      exact (and_iff_left trivial).symm
  | started i instanceId =>
      cases stands : system.call i with
      | starting challenger =>
          have joins : (system.step runtime arguments (.started i instanceId)).agents =
              system.agents ++ [.challenger (challenger.started instanceId)] := by
            rw [step, stands]
          rw [joins, bounded_append_iff rfl]
          refine and_congr_right fun _ => ⟨fun room other waits => ?_, fun finds => ?_⟩
          · rw [stands] at waits
            cases waits
            exact room
          · exact finds challenger stands
      | waiting | returned answer | raised error =>
          have same : (system.step runtime arguments (.started i instanceId)).agents =
              system.agents := by
            rw [step, stands]
          rw [same]
          refine (and_iff_left fun challenger waits => ?_).symm
          rw [stands] at waits
          cases waits

/-- The fleet is within its limits in every state that the run reaches. -/
def AlwaysBounded (runtime : Runtime) (arguments : ι → Arguments) (names : List String)
    (schedule : List (Event ι)) : Prop :=
  ∀ reached, reached <+: schedule → Bounded runtime (run runtime arguments names reached).agents

/-- Every start of the run that returns finds room in the fleet for its challenger. -/
def AlwaysFindsRoom (runtime : Runtime) (arguments : ι → Arguments) (names : List String)
    (schedule : List (Event ι)) : Prop :=
  ∀ before event after, schedule = before ++ event :: after →
    (run runtime arguments names before).FindsRoom runtime event

variable {names : List String} {schedule : List (Event ι)}

theorem alwaysFindsRoom_concat {event : Event ι} :
    AlwaysFindsRoom runtime arguments names (schedule ++ [event]) ↔
      AlwaysFindsRoom runtime arguments names schedule ∧
        (run runtime arguments names schedule).FindsRoom runtime event := by
  constructor
  · intro finds
    refine ⟨fun before earlier after split => ?_, finds schedule event [] rfl⟩
    refine finds before earlier (after ++ [event]) ?_
    rw [split, List.append_assoc, List.cons_append]
  · rintro ⟨finds, last⟩ before other after split
    rcases Effects.split_concat split with ⟨between, earlier, -⟩ | ⟨rfl, rfl, -⟩
    · exact finds before other between earlier
    · exact last

theorem bounded_run_iff (names : List String) (schedule : List (Event ι)) :
    Bounded runtime (run runtime arguments names schedule).agents ↔
      AlwaysFindsRoom runtime arguments names schedule := by
  induction schedule using List.reverseRecOn with
  | nil =>
      have noChallenger : runningChallengers (run runtime arguments names []).agents = [] := by
        simp [run, initial, runningChallengers]
      refine iff_of_true ⟨fun strategy _ => ?_, ?_⟩ fun before event after split => ?_
      · rw [noChallenger]
        exact Nat.zero_le 1
      · rw [noChallenger]
        exact Nat.zero_le _
      · simp at split
  | append_singleton schedule event induction =>
      have stepped : run runtime arguments names (schedule ++ [event]) =
          (run runtime arguments names schedule).step runtime arguments event := by
        rw [run, List.foldl_append]
        rfl
      rw [stepped, bounded_step_iff, induction, alwaysFindsRoom_concat]

/-- The limits hold throughout a run exactly if every start that returns still finds room. -/
theorem alwaysBounded_iff (names : List String) (schedule : List (Event ι)) :
    AlwaysBounded runtime arguments names schedule ↔
      AlwaysFindsRoom runtime arguments names schedule := by
  constructor
  · intro bounded
    exact (bounded_run_iff names schedule).mp (bounded schedule (List.prefix_refl schedule))
  · rintro finds reached ⟨later, rfl⟩
    refine (bounded_run_iff names reached).mpr fun before event after split => ?_
    refine finds before event (after ++ later) ?_
    rw [split, List.append_assoc, List.cons_append]

/-- Two calls that begin before either start returns run the same strategy twice. -/
theorem strategy_runs_twice :
    let momentum : Arguments := { challengerConfig := some [("strategy", .str "momentum")] }
    let schedule : List (Event Bool) :=
      [.begun false "a", .begun true "b", .started false none, .started true none]
    let reached := run Reference.runtime (fun _ => momentum) ["grade"] schedule
    reached.Settled ∧ ¬Bounded Reference.runtime reached.agents := by
  intro momentum schedule reached
  constructor
  · intro i challenger
    cases i <;> exact Call.noConfusion
  · intro bounded
    have twice := bounded.single "momentum" (by decide)
    revert twice
    decide +kernel

end System

end TradingControl.ChallengerSpawner
