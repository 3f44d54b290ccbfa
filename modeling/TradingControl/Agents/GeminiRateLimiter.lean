import Mathlib.Algebra.Order.Ring.Rat
import Mathlib.Algebra.Order.Nonneg.Field
import Mathlib.Data.NNRat.Defs
import Mathlib.Data.List.Induction
import Mathlib.Logic.Function.Basic
import Mathlib.Tactic.Abel
import Mathlib.Tactic.Linarith
import TradingControl.Effects.WindowLog

/-!
# Rate limiter of the Gemini calls

Calls of `acquire` take turns under a lock.  The one that holds it writes down the time of its grant
while the window has room, and otherwise sleeps, with the lock, until the oldest grant has left.
-/

namespace TradingControl

/-- `_rpm` and `_window`. -/
structure GeminiRateLimiter where
  rpm : ℕ := 15
  window : ℚ := 60

namespace GeminiRateLimiter

/-! ## Limiter -/

/-- What a pass of the loop in `acquire` comes to. -/
inductive Attempt where
  | granted
  | sleep (wait : ℚ)
  /-- The next pass follows at once. -/
  | again
  | indexError
deriving DecidableEq

/-- A pass of the loop in `acquire`: the times that are kept, and what it comes to. -/
def attempt (limiter : GeminiRateLimiter) (now : ℚ) (callTimes : List ℚ) : List ℚ × Attempt :=
  let callTimes := callTimes.filter (now - limiter.window < ·)
  if callTimes.length < limiter.rpm then (callTimes ++ [now], .granted)
  else
    match callTimes with
    | [] => (callTimes, .indexError)
    | first :: _ =>
        let wait := limiter.window - (now - first)
        (callTimes, if 0 < wait then .sleep wait else .again)

/-- `asyncio.Lock` and the call that holds it. -/
structure Lock (ι : Type) where
  holder : Option ι := none
deriving DecidableEq

/-- Where a call of `acquire` is. -/
inductive Call where
  | notMade
  | waiting
  /-- It holds the lock and is about to make a pass. -/
  | trying
  | sleeping (deadline : ℚ)
  | returned
  | raised
  | cancelled
deriving DecidableEq

/-- The limiter, its calls, the monotonic clock, and the times of all grants there were. -/
structure State (ι : Type) where
  now : ℚ
  callTimes : List ℚ := []
  lock : Option (Lock ι) := none
  call : ι → Call := fun _ => .notMade
  grants : List ℚ := []

inductive Event (ι : Type) where
  | tick (elapsed : ℚ≥0)
  | acquire (caller : ι)
  /-- The lock is free and goes to a call that waits. -/
  | enter (caller : ι)
  /-- A pass of the call that holds the lock, which may have slept before. -/
  | pass (caller : ι)
  | cancel (caller : ι)

section Run

variable {ι : Type} [DecidableEq ι]

namespace State

def move (state : State ι) (caller : ι) (call : Call) : State ι :=
  { state with call := Function.update state.call caller call }

/-- `async with` is left. -/
def leave (state : State ι) (caller : ι) (call : Call) : State ι :=
  { state.move caller call with lock := some {} }

/-- A pass under the lock. -/
def tries (limiter : GeminiRateLimiter) (state : State ι) (caller : ι) : State ι :=
  let (callTimes, attempt) := limiter.attempt state.now state.callTimes
  let state := { state with callTimes }
  match attempt with
  | .granted => { state.leave caller .returned with grants := state.grants ++ [state.now] }
  | .sleep wait => state.move caller (.sleeping (state.now + wait))
  | .again => state.move caller .trying
  | .indexError => state.leave caller .raised

/-- What happens where it can; nothing otherwise. -/
def step (limiter : GeminiRateLimiter) (state : State ι) : Event ι → State ι
  | .tick elapsed => { state with now := state.now + elapsed }
  | .acquire caller =>
      match state.call caller with
      | .notMade => { state.move caller .waiting with lock := some (state.lock.getD {}) }
      | _ => state
  | .enter caller =>
      match state.call caller, state.lock with
      | .waiting, some ⟨none⟩ => { state.move caller .trying with lock := some ⟨some caller⟩ }
      | _, _ => state
  | .pass caller =>
      match state.call caller with
      | .trying | .sleeping _ => state.tries limiter caller
      | _ => state
  | .cancel caller =>
      match state.call caller with
      | .waiting => state.move caller .cancelled
      | .trying | .sleeping _ => state.leave caller .cancelled
      | _ => state

theorem move_call (state : State ι) (caller : ι) (call : Call) (other : ι) :
    (state.move caller call).call other = if other = caller then call else state.call other :=
  Function.update_apply _ _ _ _

end State

/-- Any order of events, from the limiter that has not been called. -/
def run (limiter : GeminiRateLimiter) (start : ℚ) (events : List (Event ι)) : State ι :=
  events.foldl (State.step limiter) { now := start }

/-! ## What a pass can do -/

/-- No pass follows another at once, and only a limit of zero finds a log without an oldest time. -/
theorem attempt_cases (limiter : GeminiRateLimiter) (now : ℚ) (callTimes : List ℚ) :
    let kept := WindowLog.recent limiter.window now callTimes
    (kept.length < limiter.rpm ∧ limiter.attempt now callTimes = (kept ++ [now], .granted)) ∨
      (limiter.rpm = 0 ∧ limiter.attempt now callTimes = (kept, .indexError)) ∨
        ∃ first rest, kept = first :: rest ∧ limiter.rpm ≤ kept.length ∧
          limiter.attempt now callTimes = (kept, .sleep (limiter.window - (now - first))) := by
  intro kept
  have pass : limiter.attempt now callTimes =
      if kept.length < limiter.rpm then (kept ++ [now], .granted)
      else match kept with
        | [] => (kept, .indexError)
        | first :: _ =>
            let wait := limiter.window - (now - first)
            (kept, if 0 < wait then .sleep wait else .again) := rfl
  by_cases room : kept.length < limiter.rpm
  · rw [if_pos room] at pass
    exact .inl ⟨room, pass⟩
  · rw [if_neg room] at pass
    cases split : kept with
    | nil =>
        rw [split] at pass room
        exact .inr (.inl ⟨Nat.eq_zero_of_not_pos room, pass⟩)
    | cons first rest =>
        rw [split] at pass room
        have young : now - limiter.window < first := by
          have member : first ∈ kept := split ▸ List.mem_cons_self
          exact of_decide_eq_true (List.mem_filter.mp member).2
        have later : 0 < limiter.window - (now - first) := by
          rw [sub_sub_eq_add_sub]
          exact sub_pos.mpr (sub_lt_iff_lt_add'.mp young)
        simp only [if_pos later] at pass
        exact .inr (.inr ⟨first, rest, rfl, not_lt.mp room, pass⟩)

/-! ## Invariant -/

/-- The lock is held by the call. -/
def Call.Holding : Call → Prop
  | .trying | .sleeping _ => True
  | _ => False

/-- The log follows the grants, and a call that sleeps waits for the oldest of a full log. -/
structure Sound (limiter : GeminiRateLimiter) (state : State ι) : Prop where
  follows : WindowLog.Follows limiter.window state.now state.callTimes state.grants
  spaced : WindowLog.Spaced limiter.window limiter.rpm state.grants
  few : state.callTimes.length ≤ limiter.rpm
  holder : ∀ caller, (state.call caller).Holding → state.lock = some ⟨some caller⟩
  asleep : ∀ caller deadline, state.call caller = .sleeping deadline →
    limiter.rpm ≤ state.callTimes.length ∧
      state.callTimes.head? = some (deadline - limiter.window)

namespace Sound

variable {limiter : GeminiRateLimiter} {state : State ι} {caller other : ι}

omit [DecidableEq ι] in
theorem start (limiter : GeminiRateLimiter) (now : ℚ) : Sound limiter ({ now } : State ι) where
  follows := WindowLog.follows_nil
  spaced := by
    intro i early late atEarly
    cases atEarly
  few := Nat.zero_le _
  holder _ holding := holding.elim
  asleep _ _ sleeps := by cases sleeps

omit [DecidableEq ι] in
theorem eq_of_holding (sound : Sound limiter state) (first : (state.call caller).Holding)
    (second : (state.call other).Holding) : other = caller := by
  have same := (sound.holder other second).symm.trans (sound.holder caller first)
  exact Option.some.inj (congrArg Lock.holder (Option.some.inj same))

/-- Outside of the lock a call moves without the others noticing. -/
theorem move (sound : Sound limiter state) {call : Call} (out : ¬call.Holding)
    {lock : Option (Lock ι)} (keeps : ∀ other, state.lock = some ⟨some other⟩ → lock = state.lock) :
    Sound limiter { state.move caller call with lock } where
  follows := sound.follows
  spaced := sound.spaced
  few := sound.few
  holder other holding := by
    have there := holding
    simp only [State.move_call] at there
    split_ifs at there with same
    · exact absurd there out
    · have held := sound.holder other there
      exact (keeps other held).trans held
  asleep other deadline sleeps := by
    simp only [State.move_call] at sleeps
    split_ifs at sleeps with same
    · exact absurd (sleeps ▸ trivial) out
    · exact sound.asleep other deadline sleeps

theorem enter (sound : Sound limiter state) (free : state.lock = some ⟨none⟩) :
    Sound limiter { state.move caller .trying with lock := some ⟨some caller⟩ } where
  follows := sound.follows
  spaced := sound.spaced
  few := sound.few
  holder other holding := by
    simp only [State.move_call] at holding
    split_ifs at holding with same
    · rw [same]
    · have held := sound.holder other holding
      rw [free] at held
      cases held
  asleep other deadline sleeps := by
    simp only [State.move_call] at sleeps
    split_ifs at sleeps with same
    exact sound.asleep other deadline sleeps

theorem leave (sound : Sound limiter state) (holding : (state.call caller).Holding) {call : Call}
    (out : ¬call.Holding) {callTimes grants : List ℚ}
    (follows : WindowLog.Follows limiter.window state.now callTimes grants)
    (spaced : WindowLog.Spaced limiter.window limiter.rpm grants)
    (few : callTimes.length ≤ limiter.rpm) :
    Sound limiter { state.leave caller call with callTimes, grants } := by
  have none : ∀ other, ¬((state.move caller call).call other).Holding := by
    intro other there
    rw [State.move_call] at there
    split_ifs at there with same
    · exact out there
    · exact same (sound.eq_of_holding holding there)
  exact ⟨follows, spaced, few, fun other there => absurd there (none other),
    fun other deadline sleeps => absurd (sleeps ▸ trivial) (none other)⟩

/-- The call that holds the lock sleeps until the oldest grant leaves the window. -/
theorem sleep (sound : Sound limiter state) (holding : (state.call caller).Holding)
    {callTimes : List ℚ} {first : ℚ}
    (follows : WindowLog.Follows limiter.window state.now callTimes state.grants)
    (full : limiter.rpm ≤ callTimes.length) (few : callTimes.length ≤ limiter.rpm)
    (oldest : callTimes.head? = some first) :
    Sound limiter { state.move caller (.sleeping (first + limiter.window)) with callTimes } where
  follows := follows
  spaced := sound.spaced
  few := few
  holder other there := by
    simp only [State.move_call] at there
    split_ifs at there with same
    · rw [same]
      exact sound.holder caller holding
    · exact absurd (sound.eq_of_holding holding there) same
  asleep other deadline sleeps := by
    simp only [State.move_call] at sleeps
    split_ifs at sleeps with same
    · cases sleeps
      exact ⟨full, by rw [oldest, add_sub_cancel_right]⟩
    · exact absurd (sound.eq_of_holding holding (sleeps ▸ trivial)) same

theorem tries (sound : Sound limiter state) (holding : (state.call caller).Holding) :
    Sound limiter (state.tries limiter caller) := by
  have follows := sound.follows.recent
  have few : (WindowLog.recent limiter.window state.now state.callTimes).length ≤ limiter.rpm :=
    (List.length_filter_le _ _).trans sound.few
  rw [State.tries]
  rcases limiter.attempt_cases state.now state.callTimes with
    ⟨room, grants⟩ | ⟨-, raises⟩ | ⟨first, rest, split, full, sleeps⟩
  · have recorded : (WindowLog.recent limiter.window state.now state.callTimes ++
        [state.now]).length ≤ limiter.rpm := by
      rw [List.length_append, List.length_singleton]
      exact room
    rw [grants]
    exact sound.leave holding id follows.record (follows.spaced_record sound.spaced room) recorded
  · rw [raises]
    exact sound.leave holding id follows sound.spaced few
  · rw [sleeps]
    have deadline : state.now + (limiter.window - (state.now - first)) =
        first + limiter.window := by
      abel
    have slept := sound.sleep holding follows full few (by rw [split]; rfl)
    rw [← deadline] at slept
    exact slept

theorem step (sound : Sound limiter state) (event : Event ι) :
    Sound limiter (state.step limiter event) := by
  cases event with
  | tick elapsed =>
      have passes : state.now ≤ state.now + elapsed := le_add_of_nonneg_right elapsed.2
      exact ⟨sound.follows.wait passes, sound.spaced, sound.few, sound.holder, sound.asleep⟩
  | acquire caller =>
      rw [State.step]
      split
      · refine sound.move id fun other held => ?_
        rw [held]
        rfl
      · exact sound
  | enter caller =>
      rw [State.step]
      split
      · rename_i free
        exact sound.enter free
      · exact sound
  | pass caller =>
      rw [State.step]
      split
      case h_1 trying => exact sound.tries (trying ▸ trivial)
      case h_2 deadline sleeps => exact sound.tries (sleeps ▸ trivial)
      case h_3 => exact sound
  | cancel caller =>
      rw [State.step]
      split
      case h_1 => exact sound.move id fun _ _ => rfl
      case h_2 trying =>
        exact sound.leave (trying ▸ trivial) id sound.follows sound.spaced sound.few
      case h_3 deadline sleeps =>
        exact sound.leave (sleeps ▸ trivial) id sound.follows sound.spaced sound.few
      case h_4 => exact sound

theorem run (limiter : GeminiRateLimiter) (start : ℚ) (events : List (Event ι)) :
    Sound limiter (limiter.run start events) := by
  induction events using List.reverseRecOn with
  | nil => exact Sound.start limiter start
  | append_singleton events event induction =>
      rw [GeminiRateLimiter.run, List.foldl_append]
      exact induction.step event

end Sound

/-! ## What is promised -/

/-- Every window is bounded, and a call that sleeps waits for a full one to move on. -/
theorem window_bounded (limiter : GeminiRateLimiter) (start : ℚ) (events : List (Event ι)) :
    WindowLog.Spaced limiter.window limiter.rpm (limiter.run start events).grants ∧
      ∀ caller deadline, (limiter.run start events).call caller = .sleeping deadline →
        (limiter.run start events).now < deadline →
          limiter.rpm ≤ WindowLog.inWindow limiter.window (limiter.run start events).now
            (limiter.run start events).grants := by
  have sound := Sound.run limiter start events
  refine ⟨sound.spaced, fun caller deadline sleeps early => ?_⟩
  obtain ⟨full, oldest⟩ := sound.asleep caller deadline sleeps
  refine full.trans (sound.follows.length_le_inWindow fun entry member => ?_)
  have ordered := sound.follows.log_ordered
  obtain ⟨rest, split⟩ := List.head?_eq_some_iff.mp oldest
  rw [split] at ordered member
  have least : deadline - limiter.window ≤ entry := by
    rcases List.mem_cons.mp member with rfl | later
    · exact le_refl _
    · exact (List.pairwise_cons.mp ordered).1 entry later
  exact (sub_lt_sub_right early limiter.window).trans_le least

/-- The second call of a minute sleeps until the minute is over. -/
example : (run { rpm := 1 } 0
    [.acquire 1, .enter 1, .pass 1, .tick 20, .acquire 2, .enter 2, .pass 2]).call 2 =
      .sleeping 60 := by
  decide +kernel

/-! ## Progress -/

/-- Whoever is noted as the holder has the lock, and there is a lock once a call waits. -/
def Locked (lock : Option (Lock ι)) (call : ι → Call) : Prop :=
  (∀ caller, lock = some ⟨some caller⟩ → (call caller).Holding) ∧
    (lock = none → ∀ caller, call caller ≠ .waiting)

namespace Locked

variable {limiter : GeminiRateLimiter} {state : State ι} {caller : ι}

theorem update {lock after : Option (Lock ι)} {call : ι → Call} {next : Call}
    (locked : Locked lock call)
    (others : ∀ other, other ≠ caller → after = some ⟨some other⟩ → lock = after)
    (own : after = some ⟨some caller⟩ → next.Holding)
    (made : after = none → lock = none ∧ next ≠ .waiting) :
    Locked after (Function.update call caller next) := by
  refine ⟨fun other held => ?_, fun missing other => ?_⟩
  · rw [Function.update_apply]
    split_ifs with same
    · exact own (same ▸ held)
    · exact locked.1 other ((others other same held).trans held)
  · rw [Function.update_apply]
    split_ifs
    · exact (made missing).2
    · exact locked.2 (made missing).1 other

theorem leave (locked : Locked state.lock state.call) (call : Call) :
    Locked (state.leave caller call).lock (state.leave caller call).call :=
  locked.update (fun other _ held => by cases held) (fun held => by cases held)
    (fun missing => by cases missing)

theorem tries (locked : Locked state.lock state.call) :
    Locked (state.tries limiter caller).lock (state.tries limiter caller).call := by
  rw [State.tries]
  rcases limiter.attempt_cases state.now state.callTimes with
    ⟨-, grants⟩ | ⟨-, raises⟩ | ⟨first, rest, -, -, sleeps⟩
  · rw [grants]
    exact locked.leave .returned
  · rw [raises]
    exact locked.leave .raised
  · rw [sleeps]
    exact locked.update (fun _ _ _ => rfl) (fun _ => trivial)
      (fun missing => ⟨missing, Call.noConfusion⟩)

theorem step (locked : Locked state.lock state.call) (event : Event ι) :
    Locked (state.step limiter event).lock (state.step limiter event).call := by
  cases event with
  | tick elapsed => exact locked
  | acquire caller =>
      rw [State.step]
      split
      case h_1 notMade =>
        have same {other : ι} (held : some (state.lock.getD {}) = some ⟨some other⟩) :
            state.lock = some ⟨some other⟩ := by
          cases there : state.lock with
          | none =>
              rw [there] at held
              cases held
          | some lock => rwa [there] at held
        refine locked.update (fun other _ held => (same held).trans held.symm) (fun held => ?_)
          (fun missing => by cases missing)
        have holding := locked.1 caller (same held)
        rw [notMade] at holding
        exact holding.elim
      case h_2 => exact locked
  | enter caller =>
      rw [State.step]
      split
      · exact locked.update (fun other differs held => absurd (by cases held; rfl) differs)
          (fun _ => trivial) (fun missing => by cases missing)
      · exact locked
  | pass caller =>
      rw [State.step]
      split
      · exact locked.tries
      · exact locked.tries
      · exact locked
  | cancel caller =>
      rw [State.step]
      split
      case h_1 waits =>
        refine locked.update (fun _ _ _ => rfl) (fun held => ?_)
          (fun missing => ⟨missing, Call.noConfusion⟩)
        have holding := locked.1 caller held
        rw [waits] at holding
        exact holding.elim
      case h_2 => exact locked.leave .cancelled
      case h_3 => exact locked.leave .cancelled
      case h_4 => exact locked

theorem run (limiter : GeminiRateLimiter) (start : ℚ) (events : List (Event ι)) :
    Locked (limiter.run start events).lock (limiter.run start events).call := by
  induction events using List.reverseRecOn with
  | nil => exact ⟨fun _ held => (by cases held), fun _ _ => Call.noConfusion⟩
  | append_singleton events event induction =>
      rw [GeminiRateLimiter.run, List.foldl_append]
      exact induction.step event

end Locked

section Progress

variable {limiter : GeminiRateLimiter} {state : State ι} {caller : ι}

/-- A window passes, and then the call makes a pass. -/
def windowLater (limiter : GeminiRateLimiter) (state : State ι) (caller : ι) : State ι :=
  (state.step limiter (.tick limiter.window.toNNRat)).step limiter (.pass caller)

/-- Once a window has passed, the call that holds the lock is granted and gives it back. -/
theorem Sound.granted (sound : Sound limiter state) (positive : 0 < limiter.rpm)
    (holding : (state.call caller).Holding) :
    (limiter.windowLater state caller).call = Function.update state.call caller .returned ∧
      (limiter.windowLater state caller).lock = some {} ∧
      (limiter.windowLater state caller).now = state.now + limiter.window.toNNRat := by
  have past : WindowLog.recent limiter.window (state.now + limiter.window.toNNRat)
      state.callTimes = [] := by
    refine List.filter_eq_nil_iff.mpr fun entry member young => ?_
    obtain ⟨gone, split, -⟩ := sound.follows.kept
    have before := sound.follows.past entry (split ▸ List.mem_append_right gone member)
    have long := Rat.le_coe_toNNRat limiter.window
    linarith [of_decide_eq_true young]
  have passes : limiter.windowLater state caller =
      State.tries limiter { state with now := state.now + limiter.window.toNNRat } caller := by
    rw [windowLater]
    cases tries : state.call caller with
    | trying | sleeping => simp [State.step, tries]
    | _ =>
        rw [tries] at holding
        exact holding.elim
  rw [passes, State.tries]
  rcases limiter.attempt_cases (state.now + limiter.window.toNNRat) state.callTimes with
    ⟨-, grants⟩ | ⟨zero, -⟩ | ⟨first, rest, kept, -⟩
  · simp only [grants]
    exact ⟨rfl, rfl, rfl⟩
  · exact absurd zero positive.ne'
  · rw [past] at kept
    cases kept

/-- A call that waits for a free lock is granted within a window. -/
theorem Sound.served (sound : Sound limiter state) (positive : 0 < limiter.rpm)
    (waits : state.call caller = .waiting) (free : state.lock = some ⟨none⟩) :
    let served := limiter.windowLater (state.step limiter (.enter caller)) caller
    served.call caller = .returned ∧ served.now = state.now + limiter.window.toNNRat := by
  have enters : state.step limiter (.enter caller) =
      { state.move caller .trying with lock := some ⟨some caller⟩ } := by
    rw [State.step, waits, free]
  have holding : ((state.step limiter (.enter caller)).call caller).Holding := by
    rw [enters]
    simp [State.move_call, Call.Holding]
  obtain ⟨calls, -, time⟩ := (sound.step (.enter caller)).granted positive holding
  refine ⟨(congrFun calls caller).trans (Function.update_self _ _ _), time.trans ?_⟩
  rw [enters]
  rfl

end Progress

end Run

end GeminiRateLimiter

end TradingControl
