import Mathlib.Algebra.Field.Rat
import Mathlib.Algebra.Order.Nonneg.Field
import Mathlib.Algebra.Order.Ring.Rat
import Mathlib.Data.NNRat.Defs
import TradingControl.Effects.WindowLog

/-!
# Agent supervisor

The supervisor visits its agents one after the other and starts those again whose task has ended
with an exception.  It writes down the restarts of the last minutes under the agent's name and makes
no further one while there are too many of them.
-/

namespace TradingControl

/-! ## Supervised agents -/

/-- Base class of an agent. -/
inductive AgentClass where
  | baseStreamConsumer
  | multiStreamAgent
deriving DecidableEq

/-- State of an asyncio task. -/
inductive TaskState where
  | live
  /-- It has ended with an exception; its text is kept. -/
  | failed (error : String)
  | cancelled
  | completed
deriving DecidableEq

/-- `_running` and `_task`. -/
structure SupervisedAgent where
  running : Bool := false
  task : Option TaskState := none
deriving DecidableEq

namespace SupervisedAgent

/-- `_task.exception()`, if `has_crashed`. -/
def crash (agent : SupervisedAgent) : Option String :=
  match agent.task with
  | some (.failed error) => some error
  | _ => none

/-- The task has not ended. -/
def isLive (agent : SupervisedAgent) : Bool := agent.task = some .live

/-- `start` finds nothing to do. -/
def alreadyRunning (agent : SupervisedAgent) : AgentClass → Bool
  | .baseStreamConsumer => agent.isLive
  | .multiStreamAgent => agent.running

end SupervisedAgent

/-- Where `start` raises. -/
inductive StartRaise where
  | beforeRunning
  | beforeTask
  | afterTask
deriving DecidableEq

/-- `start`, with whether it returns. -/
def SupervisedAgent.start (agent : SupervisedAgent) (cls : AgentClass)
    (raises : Option StartRaise) : SupervisedAgent × Bool :=
  if agent.alreadyRunning cls then (agent, true)
  else
    match raises with
    | some .beforeRunning => (agent, false)
    | some .beforeTask => ({ agent with running := true }, false)
    | some .afterTask => ({ running := true, task := some .live }, false)
    | none => ({ running := true, task := some .live }, true)

/-! ## The supervisor -/

/-- `SUPERVISOR_MAX_RESTARTS_PER_WINDOW`. -/
def supervisorMaxRestartsPerWindow : ℕ := 3

/-- `SUPERVISOR_RESTART_WINDOW_SECONDS`. -/
def supervisorRestartWindowSeconds : ℚ := 300

/-- An alert of the supervisor, but for its constant fields and its time. -/
structure CrashAlert where
  agent : String
  error : String
deriving DecidableEq

/-- A call of `start` by the supervisor. -/
structure Attempt (ι : Type) where
  agent : ι
  time : ℚ
  returned : Bool
  /-- The agent has a live task when the call is over. -/
  live : Bool
deriving DecidableEq

/-- Class and name of each agent. -/
structure Supervised (ι : Type) where
  cls : ι → AgentClass
  name : ι → String

/-- The clock, the agents and the supervisor. -/
structure AgentSupervisor (ι : Type) where
  now : ℚ
  agent : ι → SupervisedAgent
  /-- `_restart_history`. -/
  restartHistory : String → List ℚ := fun _ => []
  alerts : List CrashAlert := []
  attempts : List (Attempt ι) := []

/-- What the environment settles about a visit. -/
structure VisitChoice where
  /-- The alert is published; a failure to do so is logged. -/
  publishes : Bool := true
  publishTime : NNRat := 0
  raises : Option StartRaise := none
  startTime : NNRat := 0

/-- What happens. -/
inductive SupervisorEvent (ι : Type) where
  /-- The task of an agent ends with an exception. -/
  | crash (i : ι) (error : String)
  /-- Time passes. -/
  | wait (time : NNRat)
  /-- A health check comes to an agent. -/
  | visit (i : ι) (choice : VisitChoice)

namespace AgentSupervisor

variable {ι : Type} [DecidableEq ι] (supervised : Supervised ι) (supervisor : AgentSupervisor ι)

/-- The restarts of a name that the window still holds. -/
def pruned (name : String) : List ℚ :=
  WindowLog.prune supervisorRestartWindowSeconds supervisor.now (supervisor.restartHistory name)

/-- `_can_restart`, which also forgets what is older than the window. -/
def canRestart (name : String) : Bool × AgentSupervisor ι :=
  ((supervisor.pruned name).length < supervisorMaxRestartsPerWindow,
    { supervisor with
      restartHistory := Function.update supervisor.restartHistory name (supervisor.pruned name) })

/-- `_record_restart`. -/
def recordRestart (name : String) : AgentSupervisor ι :=
  { supervisor with
    restartHistory := Function.update supervisor.restartHistory name
      (supervisor.restartHistory name ++ [supervisor.now]) }

/-- Publish the alert. -/
def alert (name error : String) (choice : VisitChoice) : AgentSupervisor ι :=
  { supervisor with
    now := supervisor.now + choice.publishTime
    alerts := supervisor.alerts ++ if choice.publishes then [⟨name, error⟩] else [] }

/-- Call `start`. -/
def attempt (i : ι) (choice : VisitChoice) : AgentSupervisor ι :=
  let outcome := (supervisor.agent i).start (supervised.cls i) choice.raises
  { supervisor with
    now := supervisor.now + choice.startTime
    agent := Function.update supervisor.agent i outcome.1
    attempts := supervisor.attempts ++ [⟨i, supervisor.now, outcome.2, outcome.1.isLive⟩] }

/-- The visit of one agent in `_check_health`. -/
def visit (i : ι) (choice : VisitChoice) : AgentSupervisor ι :=
  match (supervisor.agent i).crash with
  | none => supervisor
  | some error =>
      let name := supervised.name i
      let (allowed, checked) := (supervisor.alert name error choice).canRestart name
      if allowed then
        let attempted := checked.attempt supervised i choice
        if ((checked.agent i).start (supervised.cls i) choice.raises).2 then
          attempted.recordRestart name
        else attempted
      else checked

/-- `_check_health` visits the agents in turn. -/
def checkHealth (agents : List ι) (choice : ι → VisitChoice) : List (SupervisorEvent ι) :=
  agents.map fun i => .visit i (choice i)

def step (event : SupervisorEvent ι) : AgentSupervisor ι :=
  match event with
  | .crash i error =>
      if (supervisor.agent i).isLive then
        { supervisor with
          agent := Function.update supervisor.agent i
            { supervisor.agent i with task := some (.failed error) } }
      else supervisor
  | .wait time => { supervisor with now := supervisor.now + time }
  | .visit i choice => supervisor.visit supervised i choice

/-- State after events, from agents in any state. -/
def run (now : ℚ) (agent : ι → SupervisedAgent) (events : List (SupervisorEvent ι)) :
    AgentSupervisor ι :=
  events.foldl (step supervised) { now, agent }

end AgentSupervisor

end TradingControl

/-!
# Restarts

A restart is real when the agent has a live task once `start` has returned, and restarts are
bounded when no window holds more attempts at an agent than the supervisor allows.  An attempt that
raises is not written down, and an agent of several streams does nothing in `start` while it is
still marked as running, which a crash does not undo.
-/

namespace TradingControl.AgentSupervisor

variable {ι : Type} {supervised : Supervised ι} {supervisor : AgentSupervisor ι}

/-! ## Statement -/

def attemptTimes (supervisor : AgentSupervisor ι) (kind : ι → Bool) : List ℚ :=
  (supervisor.attempts.filter fun attempt => kind attempt.agent).map Attempt.time

/-- Restarts are real and bounded. -/
structure RealAndBounded [DecidableEq ι] (supervisor : AgentSupervisor ι) : Prop where
  real : ∀ attempt ∈ supervisor.attempts, attempt.returned = true → attempt.live = true
  bounded : ∀ i, WindowLog.Limited supervisorRestartWindowSeconds supervisorMaxRestartsPerWindow
    (supervisor.attemptTimes fun agent => agent = i)

/-- A visit that calls `start` calls one that does not raise, and not one of an agent of several
streams that is still marked as running. -/
def StartsAgain (supervised : Supervised ι) (supervisor : AgentSupervisor ι) :
    SupervisorEvent ι → Prop
  | .visit i choice =>
      ∀ error, (supervisor.agent i).crash = some error →
        ((supervisor.alert (supervised.name i) error choice).canRestart
            (supervised.name i)).1 = true →
          choice.raises = none ∧
            ¬(supervised.cls i = .multiStreamAgent ∧ (supervisor.agent i).running = true)
  | _ => True

def AlwaysStartsAgain [DecidableEq ι] (supervised : Supervised ι) :
    AgentSupervisor ι → List (SupervisorEvent ι) → Prop
  | _, [] => True
  | supervisor, event :: events =>
      StartsAgain supervised supervisor event ∧
        AlwaysStartsAgain supervised (supervisor.step supervised event) events

/-! ## Attempts -/

/-- A crashed agent starts unless it is one of several streams that is still marked as running. -/
theorem start_of_crash {agent : SupervisedAgent} {error : String}
    (crashed : agent.crash = some error) {cls : AgentClass}
    (stopped : ¬(cls = .multiStreamAgent ∧ agent.running = true)) :
    agent.start cls none = ({ running := true, task := some .live }, true) := by
  have idle : agent.alreadyRunning cls = false := by
    cases cls with
    | baseStreamConsumer =>
        refine decide_eq_false fun live => ?_
        rw [SupervisedAgent.crash, live] at crashed
        cases crashed
    | multiStreamAgent => exact Bool.eq_false_iff.mpr fun running => stopped ⟨rfl, running⟩
  rw [SupervisedAgent.start, idle]
  rfl

/-- The attempts at the agents of a name are covered by its history and keep the limit. -/
structure Recorded (supervised : Supervised ι) (supervisor : AgentSupervisor ι) : Prop where
  covers : ∀ name, WindowLog.Covers supervisorRestartWindowSeconds supervisor.now
    (supervisor.restartHistory name)
    (supervisor.attemptTimes fun agent => supervised.name agent = name)
  limited : ∀ name,
    WindowLog.Limited supervisorRestartWindowSeconds supervisorMaxRestartsPerWindow
      (supervisor.attemptTimes fun agent => supervised.name agent = name)
  real : ∀ attempt ∈ supervisor.attempts, attempt.returned = true → attempt.live = true

/-- Fewer events keep a limit. -/
theorem limited_of_kind {kind wider : ι → Bool} (within : ∀ i, kind i = true → wider i = true)
    (limited : WindowLog.Limited supervisorRestartWindowSeconds supervisorMaxRestartsPerWindow
      (supervisor.attemptTimes wider)) :
    WindowLog.Limited supervisorRestartWindowSeconds supervisorMaxRestartsPerWindow
      (supervisor.attemptTimes kind) := by
  intro start
  refine le_trans (List.Sublist.countP_le ?_) (limited start)
  refine List.Sublist.map _ ?_
  exact List.monotone_filter_right _ fun attempt => within attempt.agent

theorem Recorded.realAndBounded [DecidableEq ι] (recorded : Recorded supervised supervisor) :
    RealAndBounded supervisor where
  real := recorded.real
  bounded i := by
    refine limited_of_kind (fun agent same => ?_) (recorded.limited (supervised.name i))
    rw [of_decide_eq_true same]
    exact decide_eq_true rfl

/-- Time passes, and agents and alerts change, without an attempt. -/
theorem Recorded.elapse (recorded : Recorded supervised supervisor) {later : AgentSupervisor ι}
    (passes : supervisor.now ≤ later.now)
    (history : later.restartHistory = supervisor.restartHistory)
    (attempts : later.attempts = supervisor.attempts) : Recorded supervised later := by
  have times : later.attemptTimes = supervisor.attemptTimes := by
    funext kind
    rw [attemptTimes, attempts]
    rfl
  constructor
  · intro name
    rw [times, history]
    exact (recorded.covers name).wait passes
  · rw [times]
    exact recorded.limited
  · rw [attempts]
    exact recorded.real

/-- The history forgets what the window no longer holds. -/
theorem Recorded.canRestart (recorded : Recorded supervised supervisor) (name : String) :
    Recorded supervised (supervisor.canRestart name).2 := by
  refine ⟨fun other => ?_, recorded.limited, recorded.real⟩
  by_cases same : other = name
  · subst same
    have pruned : (supervisor.canRestart other).2.restartHistory other = supervisor.pruned other :=
      Function.update_self _ _ _
    rw [pruned]
    exact (recorded.covers other).prune
  · have kept : (supervisor.canRestart name).2.restartHistory other =
        supervisor.restartHistory other := Function.update_of_ne same _ _
    rw [kept]
    exact recorded.covers other

theorem attemptTimes_concat {attempted : AgentSupervisor ι} {attempt : Attempt ι}
    (attempts : attempted.attempts = supervisor.attempts ++ [attempt]) (kind : ι → Bool) :
    attempted.attemptTimes kind =
      supervisor.attemptTimes kind ++ if kind attempt.agent then [attempt.time] else [] := by
  rw [attemptTimes, attemptTimes, attempts, List.filter_append, List.map_append]
  cases isKind : kind attempt.agent <;> simp [isKind]

variable [DecidableEq ι]

theorem Recorded.restart (recorded : Recorded supervised supervisor) {i : ι} {error : String}
    (crashed : (supervisor.agent i).crash = some error)
    (room : (supervisor.restartHistory (supervised.name i)).length <
      supervisorMaxRestartsPerWindow)
    (choice : VisitChoice) (quiet : choice.raises = none)
    (stopped : ¬(supervised.cls i = .multiStreamAgent ∧ (supervisor.agent i).running = true)) :
    Recorded supervised
      ((supervisor.attempt supervised i choice).recordRestart (supervised.name i)) := by
  set restarted := (supervisor.attempt supervised i choice).recordRestart (supervised.name i)
    with isRestarted
  have passes : supervisor.now ≤ restarted.now := le_add_of_nonneg_right choice.startTime.2
  have attempts : restarted.attempts =
      supervisor.attempts ++ [⟨i, supervisor.now, true, true⟩] := by
    rw [isRestarted, recordRestart, attempt, quiet, start_of_crash crashed stopped]
    rfl
  have times := attemptTimes_concat attempts
  refine ⟨fun name => ?_, fun name => ?_, fun made member returned => ?_⟩
  · rw [times]
    by_cases same : supervised.name i = name
    · subst same
      have written : restarted.restartHistory (supervised.name i) =
          supervisor.restartHistory (supervised.name i) ++ [restarted.now] :=
        Function.update_self _ _ _
      rw [written, if_pos (decide_eq_true rfl)]
      exact ((recorded.covers _).record passes).wait passes
    · have kept : restarted.restartHistory name = supervisor.restartHistory name :=
        Function.update_of_ne (Ne.symm same) _ _
      rw [kept, if_neg (by simpa using same), List.append_nil]
      exact (recorded.covers name).wait passes
  · rw [times]
    by_cases same : supervised.name i = name
    · subst same
      rw [if_pos (decide_eq_true rfl)]
      exact (recorded.limited _).record (recorded.covers _) room
    · rw [if_neg (by simpa using same), List.append_nil]
      exact recorded.limited name
  · rw [attempts] at member
    rcases List.mem_append.mp member with earlier | last
    · exact recorded.real made earlier returned
    · rw [List.mem_singleton.mp last]

/-! ## Runs -/

theorem Recorded.visit (recorded : Recorded supervised supervisor) {i : ι} {choice : VisitChoice}
    (starts : StartsAgain supervised supervisor (.visit i choice)) :
    Recorded supervised (supervisor.visit supervised i choice) := by
  rw [AgentSupervisor.visit]
  cases crashed : (supervisor.agent i).crash with
  | none => exact recorded
  | some error =>
      have alerted : Recorded supervised (supervisor.alert (supervised.name i) error choice) :=
        recorded.elapse (le_add_of_nonneg_right choice.publishTime.2) rfl rfl
      have checked := alerted.canRestart (supervised.name i)
      dsimp only
      split
      case isFalse => exact checked
      case isTrue allowed =>
        obtain ⟨quiet, stopped⟩ := starts error crashed allowed
        have room := of_decide_eq_true allowed
        have restarted := checked.restart crashed ?_ choice quiet stopped
        · rw [if_pos ?_]
          · exact restarted
          · rw [quiet]
            exact congrArg Prod.snd (start_of_crash crashed stopped)
        · have pruned : ((supervisor.alert (supervised.name i) error choice).canRestart
              (supervised.name i)).2.restartHistory (supervised.name i) =
                (supervisor.alert (supervised.name i) error choice).pruned (supervised.name i) :=
            Function.update_self _ _ _
          rw [pruned]
          exact room

theorem Recorded.step (recorded : Recorded supervised supervisor) {event : SupervisorEvent ι}
    (starts : StartsAgain supervised supervisor event) :
    Recorded supervised (supervisor.step supervised event) := by
  cases event with
  | crash i error =>
      rw [AgentSupervisor.step]
      split
      · exact recorded.elapse (le_refl _) rfl rfl
      · exact recorded
  | wait time => exact recorded.elapse (le_add_of_nonneg_right time.2) rfl rfl
  | visit i choice => exact recorded.visit starts

theorem Recorded.run {events : List (SupervisorEvent ι)}
    (recorded : Recorded supervised supervisor)
    (starts : AlwaysStartsAgain supervised supervisor events) :
    Recorded supervised (events.foldl (AgentSupervisor.step supervised) supervisor) := by
  induction events generalizing supervisor with
  | nil => exact recorded
  | cons event events induction => exact induction (recorded.step starts.1) starts.2

/-- Restarts are real and bounded in every run whose visits start their agents again. -/
theorem realAndBounded_run (supervised : Supervised ι) (now : ℚ) (agent : ι → SupervisedAgent)
    {events : List (SupervisorEvent ι)}
    (starts : AlwaysStartsAgain supervised { now, agent } events) :
    RealAndBounded (run supervised now agent events) := by
  have start : Recorded supervised ({ now, agent } : AgentSupervisor ι) :=
    ⟨fun _ => WindowLog.covers_nil _ _ _, fun _ _ => Nat.zero_le _, fun _ none => by cases none⟩
  exact (start.run starts).realAndBounded

/-- One agent whose task is live. -/
def single (cls : AgentClass) : Supervised Unit := ⟨fun _ => cls, fun _ => "reasoning-agent"⟩

def liveAgent (_ : Unit) : SupervisedAgent := { running := true, task := some .live }

/-- A crash that the next health check finds. -/
def crashAndCheck : List (SupervisorEvent Unit) :=
  .crash () "ConnectionError()" :: checkHealth [()] fun _ => {}

/-- A consumer of one stream is started again. -/
theorem realAndBounded_consumer :
    RealAndBounded (run (single .baseStreamConsumer) 0 liveAgent crashAndCheck) :=
  realAndBounded_run _ 0 liveAgent
    ⟨trivial, fun _ _ _ => ⟨rfl, fun multi => AgentClass.noConfusion multi.1⟩, trivial⟩

/-- An agent of several streams is not, and a start that raises is tried again every time. -/
theorem restart_without_task :
    ¬RealAndBounded (run (single .multiStreamAgent) 0 liveAgent crashAndCheck) ∧
      ¬RealAndBounded (run (single .baseStreamConsumer) 0 liveAgent
        (.crash () "ConnectionError()" :: List.replicate 4
          (.visit () { raises := some .beforeTask, startTime := 30 }))) := by
  constructor
  · intro holds
    exact absurd (holds.real ⟨(), 0, true, false⟩ (by decide +kernel) rfl) Bool.noConfusion
  · intro holds
    have limited := holds.bounded () 0
    revert limited
    decide +kernel

end TradingControl.AgentSupervisor
