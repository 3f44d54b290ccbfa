import Mathlib.Algebra.Order.Nonneg.Field
import Mathlib.Algebra.Order.Ring.Rat
import Mathlib.Data.List.Induction
import Mathlib.Data.NNRat.Defs
import TradingControl.Effects.WindowLog
import TradingControl.Reasoning.ReasoningAgent

/-!
# Gates of the reasoning agent

Before it pays for a model, the agent drops signals while it is suspended, signals that say again
what it has last reasoned about, and signals that follow another of their symbol too soon.
-/

namespace TradingControl.Reasoning

open Python WindowLog

/-! ## Gates -/

/-- `settings` of the gates, with their defaults. -/
structure GateSettings where
  cooldownSeconds : ℚ := 60
  dedupPricePct : ℚ := 5 / 100

/-- Side and price of a signal. -/
abbrev Fingerprint := String × Number

/-- `_last_reason_at` and `_last_signal_fp`. -/
structure Gates where
  lastReasonAt : Dict String ℚ := []
  lastSignalFp : Dict String Fingerprint := []

/-- `abs(x)`. -/
def magnitude (x : Number) : Number := Number.max x x.neg

/-- The symbol of a signal; a missing or empty one is none. -/
def symbolOf (data : Payload) : Option String :=
  match data.lookup "symbol" with
  | some (.str symbol) => if symbol = "" then none else some symbol
  | _ => none

/-- `_signal_fingerprint`. -/
def signalFingerprint (interpreter : Interpreter) (data : Payload) : Except Raised Fingerprint := do
  let side := Value.orElse (data.lookup "action")
    (Value.orElse (data.lookup "side") (Value.orElse (data.lookup "signal") (.str "")))
  let price ← interpreter.floatOr (data.lookup "price") 0
  return (lower (interpreter.str side), price)

/-- The comparison of `_is_duplicate_signal`. -/
def alike (dedupPct : ℚ) (prev fingerprint : Fingerprint) : Bool :=
  if fingerprint.1 ≠ prev.1 ∨ prev.2.le (.finite 0) = true then false
  else
    match (magnitude (fingerprint.2.sub prev.2)).div prev.2 with
    | .ok change => change.le (.finite (dedupPct / 100))
    | .error _ => false

/-- `_is_duplicate_signal`. -/
def isDuplicateSignal (interpreter : Interpreter) (gates : Gates) (symbol : String) (data : Payload)
    (dedupPct : ℚ) : Except Raised Bool :=
  match gates.lastSignalFp.lookup symbol with
  | none => .ok false
  | some prev => do
      let fingerprint ← signalFingerprint interpreter data
      return alike dedupPct prev fingerprint

/-- A reasoning cycle on the symbol is about to start. -/
def Gates.stamp (gates : Gates) (settings : GateSettings) (symbol : String) (now : ℚ) : Gates :=
  if 0 < settings.cooldownSeconds then
    { gates with lastReasonAt := Dict.set symbol now gates.lastReasonAt }
  else gates

/-- What becomes of a signal at the gates. -/
inductive Verdict where
  | suspended
  | duplicate
  | cooling
  /-- The duplicate check cannot read it. -/
  | unreadable (raised : Raised)
  /-- It has passed the cooldown, and then its fingerprint cannot be read. -/
  | malformed (raised : Raised)
  /-- A full reasoning cycle starts. -/
  | committed
deriving DecidableEq

/-- The signal uses up the cooldown of its symbol. -/
def Verdict.passes : Verdict → Bool
  | .committed | .malformed _ => true
  | _ => false

/-- The duplicate check of `process`. -/
def checkDuplicate (settings : GateSettings) (interpreter : Interpreter) (gates : Gates)
    (symbol : String) (data : Payload) : Except Raised Bool :=
  if 0 < settings.dedupPricePct then
    isDuplicateSignal interpreter gates symbol data settings.dedupPricePct
  else .ok false

/-- The last cycle on the symbol started less than the cooldown ago. -/
def inCooldown (settings : GateSettings) (gates : Gates) (symbol : String) (now : ℚ) : Bool :=
  0 < settings.cooldownSeconds &&
    match gates.lastReasonAt.lookup symbol with
    | some lastAt => now - lastAt < settings.cooldownSeconds
    | none => false

/-- `process` up to the reasoning cycle. -/
def gate (settings : GateSettings) (interpreter : Interpreter) (gates : Gates) (now : ℚ)
    (suspendedValue : Option String) (data : Payload) : Verdict × Gates :=
  if suspendedValue = some "1" then (.suspended, gates)
  else
    match symbolOf data with
    | none => (.committed, gates)
    | some symbol =>
        match checkDuplicate settings interpreter gates symbol data with
        | .error raised => (.unreadable raised, gates)
        | .ok true => (.duplicate, gates)
        | .ok false =>
            if inCooldown settings gates symbol now then (.cooling, gates)
            else
              let gates := gates.stamp settings symbol now
              match signalFingerprint interpreter data with
              | .error raised => (.malformed raised, gates)
              | .ok fingerprint =>
                  (.committed,
                    { gates with lastSignalFp := Dict.set symbol fingerprint gates.lastSignalFp })

/-- Either no cooldown is used up, or the one of a symbol that has run down. -/
theorem gate_cases {settings : GateSettings} {interpreter : Interpreter} {gates after : Gates}
    {now : ℚ} {suspendedValue : Option String} {data : Payload} {verdict : Verdict}
    (result : gate settings interpreter gates now suspendedValue data = (verdict, after)) :
    ((verdict.passes = false ∨ symbolOf data = none) ∧
        after.lastReasonAt = gates.lastReasonAt) ∨
      ∃ symbol, symbolOf data = some symbol ∧ verdict.passes = true ∧
        inCooldown settings gates symbol now = false ∧
          after.lastReasonAt = (gates.stamp settings symbol now).lastReasonAt := by
  rw [gate] at result
  split at result
  · cases result
    exact .inl ⟨.inl rfl, rfl⟩
  cases ofSymbol : symbolOf data with
  | none =>
      rw [ofSymbol] at result
      cases result
      exact .inl ⟨.inr rfl, rfl⟩
  | some symbol =>
      simp only [ofSymbol] at result
      split at result
      · cases result
        exact .inl ⟨.inl rfl, rfl⟩
      · cases result
        exact .inl ⟨.inl rfl, rfl⟩
      · cases cooling : inCooldown settings gates symbol now with
        | true =>
            rw [if_pos cooling] at result
            cases result
            exact .inl ⟨.inl rfl, rfl⟩
        | false =>
            rw [if_neg (by simp [cooling])] at result
            refine .inr ⟨symbol, rfl, ?_⟩
            split at result <;> (cases result; exact ⟨rfl, cooling, rfl⟩)

/-! ## Cycles -/

/-- The clock, what the agent remembers, and the signals that used up a cooldown. -/
structure Desk where
  now : ℚ
  gates : Gates := {}
  starts : List (String × ℚ) := []

inductive DeskEvent where
  | tick (elapsed : ℚ≥0)
  | signal (suspendedValue : Option String) (data : Payload)

namespace Desk

def step (settings : GateSettings) (interpreter : Interpreter) (desk : Desk) : DeskEvent → Desk
  | .tick elapsed => { desk with now := desk.now + elapsed }
  | .signal suspendedValue data =>
      let (verdict, gates) := gate settings interpreter desk.gates desk.now suspendedValue data
      let started := if verdict.passes then (symbolOf data).toList else []
      { desk with gates, starts := desk.starts ++ started.map (·, desk.now) }

/-- Any order of events, from an agent that was just started. -/
def run (settings : GateSettings) (interpreter : Interpreter) (start : ℚ)
    (events : List DeskEvent) : Desk :=
  events.foldl (step settings interpreter) { now := start }

/-- When cycles on the symbol were started. -/
def startsOn (desk : Desk) (symbol : String) : List ℚ :=
  (desk.starts.filter (·.1 = symbol)).map Prod.snd

end Desk

/-- What the agent remembers of a symbol is all that a cooldown needs of its cycles. -/
structure Rationed (settings : GateSettings) (symbol : String) (desk : Desk) : Prop where
  follows : ∃ log, Follows settings.cooldownSeconds desk.now log (desk.startsOn symbol) ∧
    (0 < settings.cooldownSeconds → log = (desk.gates.lastReasonAt.lookup symbol).toList)
  spaced : Spaced settings.cooldownSeconds 1 (desk.startsOn symbol)

namespace Rationed

variable {settings : GateSettings} {interpreter : Interpreter} {symbol : String} {desk : Desk}

/-- The gate decides by the last cycle as it would by all there were. -/
theorem inCooldown_iff (rationed : Rationed settings symbol desk) :
    inCooldown settings desk.gates symbol desk.now = true ↔
      ∃ start ∈ desk.startsOn symbol, desk.now - settings.cooldownSeconds < start := by
  obtain ⟨log, follows, isLog⟩ := rationed.follows
  rw [inCooldown, Bool.and_eq_true, decide_eq_true_eq]
  constructor
  · rintro ⟨enabled, soon⟩
    cases held : desk.gates.lastReasonAt.lookup symbol with
    | none =>
        rw [held] at soon
        cases soon
    | some lastAt =>
        rw [held] at soon
        obtain ⟨gone, split, -⟩ := follows.kept
        have member : lastAt ∈ log := by
          rw [isLog enabled, held]
          exact List.mem_singleton_self lastAt
        refine ⟨lastAt, split ▸ List.mem_append_right gone member, ?_⟩
        linarith [of_decide_eq_true soon]
  · rintro ⟨start, member, soon⟩
    have past := follows.past start member
    have enabled : 0 < settings.cooldownSeconds := by linarith
    obtain ⟨gone, split, old⟩ := follows.kept
    rw [split, isLog enabled] at member
    rcases List.mem_append.mp member with isGone | isLast
    · exact absurd (old start isGone) (not_le.mpr soon)
    · refine ⟨enabled, ?_⟩
      rw [Option.mem_toList.mp isLast]
      exact decide_eq_true (by linarith)

theorem tick (rationed : Rationed settings symbol desk) (elapsed : ℚ≥0) :
    Rationed settings symbol { desk with now := desk.now + elapsed } := by
  obtain ⟨log, follows, isLog⟩ := rationed.follows
  exact ⟨⟨log, follows.wait (le_add_of_nonneg_right elapsed.2), isLog⟩, rationed.spaced⟩

/-- A cycle starts on the symbol once the cooldown has run down. -/
theorem start (rationed : Rationed settings symbol desk)
    (rested : inCooldown settings desk.gates symbol desk.now = false) {after : Desk}
    (sameTime : after.now = desk.now)
    (starts : after.startsOn symbol = desk.startsOn symbol ++ [desk.now])
    (stamped : after.gates.lastReasonAt =
      (desk.gates.stamp settings symbol desk.now).lastReasonAt) :
    Rationed settings symbol after := by
  obtain ⟨log, follows, isLog⟩ := rationed.follows
  have fresh : Follows settings.cooldownSeconds desk.now [] (desk.startsOn symbol) := by
    refine follows.rest fun entry member => not_lt.mp fun young => ?_
    obtain ⟨gone, split, -⟩ := follows.kept
    have cooling := rationed.inCooldown_iff.mpr
      ⟨entry, split ▸ List.mem_append_right gone member, young⟩
    rw [rested] at cooling
    cases cooling
  refine ⟨⟨[desk.now], ?_, fun enabled => ?_⟩, ?_⟩
  · rw [sameTime, starts]
    exact fresh.record
  · rw [stamped, Gates.stamp, if_pos enabled, Dict.lookup_set, if_pos rfl]
    rfl
  · rw [starts]
    exact fresh.spaced_record rationed.spaced Nat.zero_lt_one

/-- A signal that leaves the symbol alone. -/
theorem skip (rationed : Rationed settings symbol desk) {after : Desk}
    (sameTime : after.now = desk.now) (starts : after.startsOn symbol = desk.startsOn symbol)
    (held : after.gates.lastReasonAt.lookup symbol = desk.gates.lastReasonAt.lookup symbol) :
    Rationed settings symbol after := by
  obtain ⟨log, follows, isLog⟩ := rationed.follows
  refine ⟨⟨log, ?_, fun enabled => ?_⟩, ?_⟩
  · rw [sameTime, starts]
    exact follows
  · rw [held]
    exact isLog enabled
  · rw [starts]
    exact rationed.spaced

theorem signal (rationed : Rationed settings symbol desk) (suspendedValue : Option String)
    (data : Payload) :
    Rationed settings symbol (desk.step settings interpreter (.signal suspendedValue data)) := by
  rw [Desk.step]
  rcases result : gate settings interpreter desk.gates desk.now suspendedValue data with
    ⟨verdict, gates⟩
  rcases gate_cases result with ⟨free, unchanged⟩ | ⟨other, ofSymbol, passes, rested, stamped⟩
  · refine rationed.skip rfl ?_ (congrArg (List.lookup symbol) unchanged)
    have nothing : (if verdict.passes then (symbolOf data).toList else []) = [] := by
      rcases free with dropped | nameless
      · rw [if_neg (by simp [dropped])]
      · rw [nameless, Option.toList_none, ite_self]
    simp only [Desk.startsOn, nothing, List.map_nil, List.append_nil]
  · by_cases same : other = symbol
    · subst same
      refine rationed.start rested rfl ?_ stamped
      simp [Desk.startsOn, passes, ofSymbol]
    · refine rationed.skip rfl ?_ ?_
      · simp [Desk.startsOn, passes, ofSymbol, same]
      · rw [stamped, Gates.stamp]
        split
        · rw [Dict.lookup_set, if_neg (Ne.symm same)]
        · rfl

theorem run (settings : GateSettings) (interpreter : Interpreter) (start : ℚ)
    (events : List DeskEvent) (symbol : String) :
    Rationed settings symbol (Desk.run settings interpreter start events) := by
  induction events using List.reverseRecOn with
  | nil =>
      exact ⟨⟨[], follows_nil, fun _ => rfl⟩, fun i early late atEarly => by cases atEarly⟩
  | append_singleton events event induction =>
      rw [Desk.run, List.foldl_concat]
      cases event with
      | tick elapsed => exact induction.tick elapsed
      | signal suspendedValue data => exact induction.signal suspendedValue data

end Rationed

/-- In every run, successive cycles on a symbol are a cooldown apart, and the cooldown is in force
exactly while some cycle on the symbol started that recently. -/
theorem cycles_rationed (settings : GateSettings) (interpreter : Interpreter) (start : ℚ)
    (events : List DeskEvent) (symbol : String) :
    let desk := Desk.run settings interpreter start events
    Spaced settings.cooldownSeconds 1 (desk.startsOn symbol) ∧
      (inCooldown settings desk.gates symbol desk.now = true ↔
        ∃ started ∈ desk.startsOn symbol, desk.now - settings.cooldownSeconds < started) :=
  have rationed := Rationed.run settings interpreter start events symbol
  ⟨rationed.spaced, rationed.inCooldown_iff⟩

end TradingControl.Reasoning
