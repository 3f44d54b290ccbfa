import Mathlib.Logic.Function.Basic
import TradingControl.Effects.Execution
import TradingControl.Python.Runtime

/-!
# Replay of dead letters

`DLQManager.replay` looks for a record in the queue of every stream, publishes its payload through
the event bus and clears the event id from all queues.  The bus answers a failed append with a
value that the replay does not look at.
-/

namespace TradingControl.Events

open Effects Python

/-! ## Event bus -/

/-- Texts of `str()` on floats and of `json.dumps`. -/
structure Formatter where
  float : ℚ → String
  dumps : Value → String

/-- `str(value)` of a number or a truth value. -/
def Formatter.str (formatter : Formatter) : Value → String
  | .bool value => if value then "True" else "False"
  | .int value => toString value
  | .float value => formatter.float value
  | .nonFinite value => value.text
  | .str text => text
  | value => formatter.dumps value

/-- `_serialize`. -/
def serialize (formatter : Formatter) : Value → String
  | .none => ""
  | .list items => formatter.dumps (.list items)
  | .dict entries => formatter.dumps (.dict entries)
  | value => formatter.str value

/-- `event.setdefault(key, value)`. -/
def setDefault (event : List (String × Value)) (key : String) (value : Value) :
    List (String × Value) :=
  if (Value.get event key).isNone then event ++ [(key, value)] else event

/-- Fields of the entry that an event is published as. -/
def eventFields (formatter : Formatter) (event : List (String × Value)) (now : String) :
    List (String × String) :=
  (setDefault (setDefault event "schema_version" (.str "v3")) "timestamp" (.str now)).map
    fun (key, value) => (key, serialize formatter value)

/-- An entry appended to a stream. -/
structure Entry where
  stream : String
  fields : List (String × String)
deriving DecidableEq

/-! ## Operations -/

/-- Exceptions of a replay. -/
inductive ReplayFailure where
  | redisError
  /-- A stream name that the Redis client rejects. -/
  | dataError
  /-- A record that is no JSON, no object, or lacks a field. -/
  | malformedRecord
deriving DecidableEq

inductive ReplayOp where
  | hget (stream eventId : String)
  /-- `XADD`; `none` is a stream name that the client rejects. -/
  | xadd (stream : Option String) (fields : List (String × String))
  | hdel (stream eventId : String)
  /-- `DEL` of the failure counter. -/
  | deleteRetries (eventId : String)
  | utcNow

abbrev ReplayOp.Answer : ReplayOp → Type
  | .hget _ _ => Option (Option Value)
  | .xadd _ _ => String
  | .utcNow => String
  | _ => Unit

abbrev replaySignature : Signature where
  Op := ReplayOp
  Answer := ReplayOp.Answer

/-- Programs of the dead-letter queue. -/
abbrev Replaying (α : Type) := Program replaySignature ReplayFailure α

/-- What becomes of a Redis command. -/
inductive Reply where
  | answered
  /-- It raises and has no effect. -/
  | lost
  /-- It raises after it has taken effect. -/
  | unacknowledged
deriving DecidableEq

/-- What the environment decides about one operation. -/
structure ReplayChoice where
  reply : Reply := .answered
  messageId : String := "0-1"
  now : String := "1970-01-01T00:00:00+00:00"

/-- The queues, with `none` inside for a text that is no JSON, the entries appended to the streams,
and the failure counters. -/
structure ReplayWorld where
  dlq : String → String → Option (Option Value)
  entries : List Entry := []
  retries : String → Option ℕ := fun _ => none

namespace ReplayWorld

/-- World after `HDEL`. -/
def remove (world : ReplayWorld) (stream eventId : String) : ReplayWorld :=
  { world with
    dlq := Function.update world.dlq stream (Function.update (world.dlq stream) eventId none) }

/-- World after `XADD`. -/
def append (world : ReplayWorld) (entry : Entry) : ReplayWorld :=
  { world with entries := world.entries ++ [entry] }

@[simp] theorem remove_entries (world : ReplayWorld) (stream eventId : String) :
    (world.remove stream eventId).entries = world.entries := rfl

@[simp] theorem remove_dlq_self (world : ReplayWorld) (stream eventId : String) :
    (world.remove stream eventId).dlq stream eventId = none := by
  simp [remove]

theorem remove_dlq_other (world : ReplayWorld) {stream other : String} (different : other ≠ stream)
    (eventId held : String) :
    (world.remove stream eventId).dlq other held = world.dlq other held := by
  simp [remove, different]

@[simp] theorem append_dlq (world : ReplayWorld) (entry : Entry) :
    (world.append entry).dlq = world.dlq := rfl

end ReplayWorld

/-- A command that may raise, before or after it takes effect. -/
def reply {α : Type} (choice : ReplayChoice) (answer : α) (before after : ReplayWorld) :
    Except ReplayFailure α × ReplayWorld :=
  match choice.reply with
  | .answered => (.ok answer, after)
  | .lost => (.error .redisError, before)
  | .unacknowledged => (.error .redisError, after)

theorem reply_world {α : Type} (choice : ReplayChoice) (answer : α) (before after : ReplayWorld) :
    (reply choice answer before after).2 = before ∨
      (reply choice answer before after).2 = after := by
  rw [reply]
  cases choice.reply with
  | answered => exact Or.inr rfl
  | lost => exact Or.inl rfl
  | unacknowledged => exact Or.inr rfl

/-- Answer one operation. -/
def replayHandler : Handler replaySignature ReplayFailure ReplayChoice ReplayWorld
  | .hget stream eventId, choice, world => reply choice (world.dlq stream eventId) world world
  | .xadd none _, _, world => (.error .dataError, world)
  | .xadd (some stream) fields, choice, world =>
      reply choice choice.messageId world (world.append ⟨stream, fields⟩)
  | .hdel stream eventId, choice, world => reply choice () world (world.remove stream eventId)
  | .deleteRetries eventId, choice, world =>
      reply choice () world { world with retries := Function.update world.retries eventId none }
  | .utcNow, choice, world => (.ok choice.now, world)

/-! ## Dead-letter queue -/

/-- One operation as a program. -/
def issue (op : ReplayOp) : Replaying op.Answer := Program.perform (S := replaySignature) op

/-- `STREAMS`. -/
def streams : List String :=
  ["market_events", "market_ticks", "signals", "decisions", "graded_decisions", "orders",
    "executions", "trade_completed", "trade_performance", "risk_alerts", "learning_events",
    "system_metrics", "agent_logs", "agent_grades", "factor_ic_history", "reflection_outputs",
    "proposals", "notifications", "github_prs", "trade_lifecycle", "dlq", "sell_rejected"]

/-- Stream a Redis client addresses by a value. -/
def streamName (formatter : Formatter) : Value → Option String
  | .str name => some name
  | .int number => some (formatter.str (.int number))
  | .float number => some (formatter.str (.float number))
  | .nonFinite number => some number.text
  | _ => none

/-- `EventBus.publish`: the message id, or `none` where the append failed. -/
def publish (formatter : Formatter) (stream payload : Value) : Replaying (Option String) := do
  match payload with
  | .dict event =>
      let now ← issue .utcNow
      match ← (issue (.xadd (streamName formatter stream)
          (eventFields formatter event now))).attempt with
      | .ok messageId => return some messageId
      | .error _ => return none
  | _ => .raise .malformedRecord

/-- `HDEL` on the queue of every stream. -/
def clearStreams (eventId : String) : List String → Replaying Unit
  | [] => .ret ()
  | stream :: rest => do
      issue (.hdel stream eventId)
      clearStreams eventId rest

/-- `DLQManager.clear`. -/
def clear (eventId : String) : Replaying Unit := do
  clearStreams eventId streams
  issue (.deleteRetries eventId)

/-- `record[key]`. -/
def subscript (key : String) : Value → Option Value
  | .dict entries => Value.get entries key
  | _ => none

def replayable : Option Value → Option (Value × Value)
  | none => none
  | some record =>
      match subscript "stream" record, subscript "payload" record with
      | some stream, some payload => some (stream, payload)
      | _, _ => none

/-- Publish a record that was found, and clear its event id. -/
def redeliver (formatter : Formatter) (eventId : String) (raw : Option Value) : Replaying Bool := do
  match replayable raw with
  | none => .raise .malformedRecord
  | some (stream, payload) =>
      let _ ← publish formatter stream payload
      clear eventId
      return true

/-- Look for the event id in the queues of the streams, and redeliver the first record. -/
def replayFrom (formatter : Formatter) (eventId : String) : List String → Replaying Bool
  | [] => .ret false
  | stream :: rest => do
      match ← issue (.hget stream eventId) with
      | none => replayFrom formatter eventId rest
      | some raw => redeliver formatter eventId raw

/-- `DLQManager.replay`. -/
def replay (formatter : Formatter) (eventId : String) : Replaying Bool :=
  replayFrom formatter eventId streams

/-! ## Clearing -/

/-- The `HDEL` of a stream is reached and takes effect. -/
def Clears (choices : ℕ → ReplayChoice) (queues : List String) (stream : String) : Prop :=
  ∃ before after, queues = before ++ stream :: after ∧
    (∀ n < before.length, (choices n).reply = .answered) ∧
      (choices before.length).reply ≠ .lost

theorem not_clears_nil (choices : ℕ → ReplayChoice) (stream : String) :
    ¬Clears choices [] stream := by
  rintro ⟨before, after, split, -⟩
  simp at split

theorem clears_cons (choices : ℕ → ReplayChoice) (head : String) (rest : List String)
    (stream : String) :
    Clears choices (head :: rest) stream ↔ head = stream ∧ (choices 0).reply ≠ .lost ∨
      (choices 0).reply = .answered ∧ Clears (fun n => choices (n + 1)) rest stream := by
  constructor
  · rintro ⟨before, after, split, answered, effect⟩
    cases before with
    | nil =>
        rw [List.nil_append, List.cons.injEq] at split
        exact Or.inl ⟨split.1, effect⟩
    | cons first before =>
        rw [List.cons_append, List.cons.injEq] at split
        refine Or.inr ⟨answered 0 (by simp), before, after, split.2, fun n bound => ?_, effect⟩
        exact answered (n + 1) (by simpa using bound)
  · rintro (⟨rfl, effect⟩ | ⟨first, before, after, rfl, answered, effect⟩)
    · exact ⟨[], rest, rfl, by simp, effect⟩
    · refine ⟨head :: before, after, rfl, fun n bound => ?_, effect⟩
      cases n with
      | zero => exact first
      | succ n => exact answered n (by simpa using bound)

/-- What `count` commands that clear a list of queues leave behind. -/
structure Cleared (choices : ℕ → ReplayChoice) (eventId : String) (queues : List String)
    (count : ℕ) (before : ReplayWorld) (result : Except ReplayFailure Unit)
    (after : ReplayWorld) : Prop where
  entries : after.entries = before.entries
  removed : ∀ stream, Clears choices queues stream → after.dlq stream eventId = none
  kept : ∀ stream, ¬Clears choices queues stream →
    after.dlq stream eventId = before.dlq stream eventId
  answered : result = .ok () ↔ ∀ n < count, (choices n).reply = .answered

theorem cleared_clearStreams (eventId : String) (queues : List String)
    (choices : ℕ → ReplayChoice) (world : ReplayWorld) :
    Cleared choices eventId queues queues.length world
      ((clearStreams eventId queues).exec replayHandler choices world).1
      ((clearStreams eventId queues).exec replayHandler choices world).2 := by
  induction queues generalizing choices world with
  | nil =>
      refine ⟨rfl, fun stream cleared => ?_, fun _ _ => rfl, ?_⟩
      · exact absurd cleared (not_clears_nil choices stream)
      · exact ⟨fun _ n bound => absurd bound (Nat.not_lt_zero n), fun _ => rfl⟩
  | cons head rest induction =>
      have removed : ∀ stream, stream = head →
          (world.remove head eventId).dlq stream eventId = none := by
        rintro _ rfl
        simp
      have kept : ∀ stream, stream ≠ head →
          (world.remove head eventId).dlq stream eventId = world.dlq stream eventId :=
        fun stream different => world.remove_dlq_other different eventId eventId
      have failed : (choices 0).reply ≠ .answered →
          ((.error .redisError : Except ReplayFailure Unit) = .ok () ↔
            ∀ n < (head :: rest).length, (choices n).reply = .answered) := by
        intro unanswered
        constructor
        · intro ok
          cases ok
        · intro answered
          exact absurd (answered 0 (Nat.succ_pos _)) unanswered
      cases outcome : (choices 0).reply with
      | lost =>
          have effect : (clearStreams eventId (head :: rest)).exec replayHandler choices world =
              (.error .redisError, world) := by
            simp [clearStreams, issue, Program.perform, Program.bind, Program.exec, replayHandler,
              reply, outcome]
          rw [effect]
          refine ⟨rfl, fun stream cleared => ?_, fun _ _ => rfl, failed (by simp [outcome])⟩
          simp [clears_cons, outcome] at cleared
      | unacknowledged =>
          have effect : (clearStreams eventId (head :: rest)).exec replayHandler choices world =
              (.error .redisError, world.remove head eventId) := by
            simp [clearStreams, issue, Program.perform, Program.bind, Program.exec, replayHandler,
              reply, outcome]
          rw [effect]
          refine ⟨rfl, fun stream cleared => ?_, fun stream spared => ?_,
            failed (by simp [outcome])⟩
          · refine removed stream ?_
            simpa [clears_cons, outcome, eq_comm] using cleared
          · refine kept stream ?_
            simpa [clears_cons, outcome, eq_comm] using spared
      | answered =>
          have effect : (clearStreams eventId (head :: rest)).exec replayHandler choices world =
              (clearStreams eventId rest).exec replayHandler (fun n => choices (n + 1))
                (world.remove head eventId) := by
            simp [clearStreams, issue, Program.perform, Program.bind, Program.exec, replayHandler,
              reply, outcome]
          rw [effect]
          obtain ⟨entries, removedLater, keptLater, answeredLater⟩ :=
            induction (fun n => choices (n + 1)) (world.remove head eventId)
          have cleared : ∀ stream, Clears choices (head :: rest) stream ↔
              head = stream ∨ Clears (fun n => choices (n + 1)) rest stream := by
            intro stream
            simp [clears_cons, outcome]
          refine ⟨entries, fun stream clears => ?_, fun stream spared => ?_, ?_⟩
          · by_cases later : Clears (fun n => choices (n + 1)) rest stream
            · exact removedLater stream later
            · rw [keptLater stream later]
              exact removed stream (((cleared stream).mp clears).resolve_right later).symm
          · rw [cleared, not_or] at spared
            rw [keptLater stream spared.2]
            exact kept stream (Ne.symm spared.1)
          · rw [answeredLater]
            refine ⟨fun later n bound => ?_, fun every n bound => ?_⟩
            · cases n with
              | zero => exact outcome
              | succ n => exact later n (Nat.lt_of_succ_lt_succ bound)
            · exact every (n + 1) (Nat.succ_lt_succ bound)

theorem steps_clearStreams (eventId : String) (queues : List String)
    (choices : ℕ → ReplayChoice) (world : ReplayWorld)
    (answered : ∀ n < queues.length, (choices n).reply = .answered) :
    (clearStreams eventId queues).steps replayHandler choices world = queues.length := by
  induction queues generalizing choices world with
  | nil => rfl
  | cons head rest induction =>
      have first : (choices 0).reply = .answered := answered 0 (Nat.succ_pos _)
      have next : (clearStreams eventId (head :: rest)).steps replayHandler choices world =
          (clearStreams eventId rest).steps replayHandler (fun n => choices (n + 1))
            (world.remove head eventId) + 1 := by
        simp [clearStreams, issue, Program.perform, Program.bind, Program.steps, replayHandler,
          reply, first]
      rw [next, induction _ _ fun n bound => answered (n + 1) (Nat.succ_lt_succ bound)]
      rfl

theorem cleared_clear (eventId : String) (choices : ℕ → ReplayChoice) (world : ReplayWorld) :
    Cleared choices eventId streams (streams.length + 1) world
      ((clear eventId).exec replayHandler choices world).1
      ((clear eventId).exec replayHandler choices world).2 := by
  have cleared := cleared_clearStreams eventId streams choices world
  have count := steps_clearStreams eventId streams choices world
  rw [clear]
  rw [Program.bind_eq_bind, Program.exec_bind]
  rcases result : (clearStreams eventId streams).exec replayHandler choices world with
    ⟨outcome, after⟩
  rw [result] at cleared
  cases outcome with
  | error error =>
      refine ⟨cleared.entries, cleared.removed, cleared.kept, ?_⟩
      constructor
      · intro ok
        cases ok
      · intro answered
        have early := cleared.answered.mpr fun n bound => answered n (Nat.lt_succ_of_lt bound)
        cases early
  | ok done =>
      have answered := cleared.answered.mp rfl
      rw [count answered]
      dsimp only
      rw [issue, Program.exec_perform, Nat.zero_add]
      have counter : (replayHandler (.deleteRetries eventId) (choices streams.length) after).2.dlq =
            after.dlq ∧
          (replayHandler (.deleteRetries eventId) (choices streams.length) after).2.entries =
            after.entries := by
        rw [replayHandler]
        rcases reply_world (choices streams.length) () after
          { after with retries := Function.update after.retries eventId none } with same | same
        · rw [same]
          exact ⟨rfl, rfl⟩
        · rw [same]
          exact ⟨rfl, rfl⟩
      have succeeded :
          (replayHandler (.deleteRetries eventId) (choices streams.length) after).1 = .ok () ↔
            (choices streams.length).reply = .answered := by
        simp only [replayHandler, reply]
        cases (choices streams.length).reply <;> simp
      refine ⟨?_, fun stream clears => ?_, fun stream spared => ?_, ?_⟩
      · rw [counter.2, cleared.entries]
      · rw [counter.1, cleared.removed stream clears]
      · rw [counter.1, cleared.kept stream spared]
      · rw [succeeded]
        refine ⟨fun last n bound => ?_, fun every => every _ (Nat.lt_succ_self _)⟩
        rcases Nat.lt_succ_iff_lt_or_eq.mp bound with earlier | rfl
        · exact answered n earlier
        · exact last

/-! ## Publishing -/

/-- The entry that a record is published as. -/
def replayEntry (formatter : Formatter) (raw : Option Value) (now : String) : Option Entry :=
  match replayable raw with
  | some (stream, .dict event) =>
      (streamName formatter stream).map fun name => ⟨name, eventFields formatter event now⟩
  | _ => none

/-- The record names a stream and holds an event. -/
def Publishable (raw : Option Value) : Prop :=
  ∃ stream event, replayable raw = some (stream, .dict event)

/-- World after the bus has tried to append an entry. -/
def ReplayWorld.published (world : ReplayWorld) (entry : Option Entry) (choice : ReplayChoice) :
    ReplayWorld :=
  match entry, choice.reply with
  | none, _ => world
  | some _, .lost => world
  | some entry, _ => world.append entry

/-- The bus hides whether the append failed. -/
theorem exec_publish (formatter : Formatter) (stream : Value) (event : List (String × Value))
    (choices : ℕ → ReplayChoice) (world : ReplayWorld) :
    (∃ messageId, (publish formatter stream (.dict event)).exec replayHandler choices world =
      (.ok messageId, world.published ((streamName formatter stream).map fun name =>
        ⟨name, eventFields formatter event (choices 0).now⟩) (choices 1))) ∧
      (publish formatter stream (.dict event)).steps replayHandler choices world = 2 := by
  unfold publish
  dsimp only
  generalize streamName formatter stream = name
  have clock : (issue .utcNow : Replaying String).exec replayHandler choices world =
      (.ok (choices 0).now, world) := rfl
  rw [Program.bind_eq_bind, Program.exec_bind, Program.steps_bind, clock]
  dsimp only
  rw [Program.bind_eq_bind, Program.exec_bind, Program.steps_bind, Program.exec_attempt,
    Program.steps_attempt, issue, issue, Program.exec_perform, Program.steps_perform,
    Program.steps_perform]
  generalize eventFields formatter event (choices 0).now = fields
  dsimp only
  have append : (replayHandler (.xadd name fields) (choices 1) world).2 =
      world.published (name.map fun name => ⟨name, fields⟩) (choices 1) := by
    cases name with
    | none => rfl
    | some name =>
        simp only [replayHandler, reply, ReplayWorld.published, Option.map_some]
        cases (choices 1).reply with
        | answered => rfl
        | lost => rfl
        | unacknowledged => rfl
  rw [← append]
  cases (replayHandler (.xadd name fields) (choices 1) world).1 with
  | ok messageId => exact ⟨⟨some messageId, rfl⟩, rfl⟩
  | error error => exact ⟨⟨none, rfl⟩, rfl⟩

/-- A publishable record is published and its event id cleared, whatever the bus answers. -/
theorem exec_redeliver {formatter : Formatter} {eventId : String} {raw : Option Value}
    (publishable : Publishable raw) (choices : ℕ → ReplayChoice) (world : ReplayWorld) :
    let published := world.published (replayEntry formatter raw (choices 0).now) (choices 1)
    let cleared := (clear eventId).exec replayHandler (fun n => choices (n + 2)) published
    (redeliver formatter eventId raw).exec replayHandler choices world =
      (cleared.1.map fun _ => true, cleared.2) := by
  obtain ⟨stream, event, equality⟩ := publishable
  obtain ⟨⟨messageId, bus⟩, steps⟩ := exec_publish formatter stream event choices world
  intro published cleared
  have entry : world.published ((streamName formatter stream).map fun name =>
      ⟨name, eventFields formatter event (choices 0).now⟩) (choices 1) = published := by
    simp only [published, replayEntry, equality]
  rw [redeliver]
  simp only [equality]
  rw [Program.bind_eq_bind, Program.exec_bind, bus, steps, entry]
  dsimp only
  rw [Program.bind_eq_bind, Program.exec_bind]
  rcases outcome : (clear eventId).exec replayHandler (fun n => choices (n + 2)) published with
    ⟨result, after⟩
  have same : cleared = (result, after) := outcome
  rw [same]
  cases result with
  | ok done => rfl
  | error error => rfl

/-- Any other record stays where it is. -/
theorem exec_redeliver_malformed {formatter : Formatter} {eventId : String} {raw : Option Value}
    (malformed : ¬Publishable raw) (choices : ℕ → ReplayChoice) (world : ReplayWorld) :
    (redeliver formatter eventId raw).exec replayHandler choices world =
      (.error .malformedRecord, world) := by
  rw [redeliver]
  cases equality : replayable raw with
  | none => rfl
  | some fields =>
      obtain ⟨stream, payload⟩ := fields
      cases payload with
      | dict event => exact absurd ⟨stream, event, equality⟩ malformed
      | _ => rfl

/-! ## Searching -/

/-- The record at which the search over a list of queues ends. -/
def Found (world : ReplayWorld) (choices : ℕ → ReplayChoice) (eventId : String)
    (queues : List String) (index : ℕ) (found : Option Value) : Prop :=
  (∃ before stream after, queues = before ++ stream :: after ∧ before.length = index ∧
    (∀ earlier ∈ before, world.dlq earlier eventId = none) ∧
      world.dlq stream eventId = some found) ∧
    ∀ n ≤ index, (choices n).reply = .answered

theorem not_found_nil (world : ReplayWorld) (choices : ℕ → ReplayChoice) (eventId : String)
    (index : ℕ) (found : Option Value) : ¬Found world choices eventId [] index found := by
  rintro ⟨⟨before, stream, after, split, -⟩, -⟩
  simp at split

theorem found_cons (world : ReplayWorld) (choices : ℕ → ReplayChoice) (eventId head : String)
    (rest : List String) (index : ℕ) (found : Option Value) :
    Found world choices eventId (head :: rest) index found ↔
      (choices 0).reply = .answered ∧
        (index = 0 ∧ world.dlq head eventId = some found ∨
          ∃ earlier, index = earlier + 1 ∧ world.dlq head eventId = none ∧
            Found world (fun n => choices (n + 1)) eventId rest earlier found) := by
  constructor
  · rintro ⟨⟨before, stream, after, split, length, absent, held⟩, answered⟩
    refine ⟨answered 0 (Nat.zero_le _), ?_⟩
    cases before with
    | nil =>
        rw [List.nil_append, List.cons.injEq] at split
        rw [split.1]
        exact Or.inl ⟨length.symm, held⟩
    | cons first before =>
        rw [List.cons_append, List.cons.injEq] at split
        refine Or.inr ⟨before.length, length.symm, ?_, ⟨before, stream, after, split.2, rfl, ?_,
          held⟩, fun n bound => ?_⟩
        · rw [split.1]
          exact absent first (List.mem_cons_self ..)
        · exact fun earlier member => absent earlier (List.mem_cons_of_mem _ member)
        · exact answered (n + 1) (length ▸ Nat.succ_le_succ bound)
  · rintro ⟨first, ⟨rfl, held⟩ | ⟨earlier, rfl, absent, ⟨before, stream, after, rfl, length,
      absentLater, held⟩, answered⟩⟩
    · refine ⟨⟨[], head, rest, rfl, rfl, by simp, held⟩, fun n bound => ?_⟩
      rw [Nat.le_zero.mp bound]
      exact first
    · refine ⟨⟨head :: before, stream, after, rfl, by simp [length], ?_, held⟩, fun n bound => ?_⟩
      · rintro other member
        rcases List.mem_cons.mp member with rfl | member
        · exact absent
        · exact absentLater other member
      · cases n with
        | zero => exact first
        | succ n => exact answered n (Nat.le_of_succ_le_succ bound)

theorem Found.unique {world : ReplayWorld} {choices : ℕ → ReplayChoice} {eventId : String}
    {queues : List String} {index other : ℕ} {found record : Option Value}
    (one : Found world choices eventId queues index found)
    (two : Found world choices eventId queues other record) : other = index ∧ record = found := by
  induction queues generalizing choices index other with
  | nil => exact absurd one (not_found_nil world choices eventId index found)
  | cons head rest induction =>
      rw [found_cons] at one two
      rcases one with ⟨-, ⟨rfl, held⟩ | ⟨before, rfl, absent, one⟩⟩
      · rcases two with ⟨-, ⟨rfl, present⟩ | ⟨after, rfl, absent, -⟩⟩
        · exact ⟨rfl, Option.some.inj (present.symm.trans held)⟩
        · rw [held] at absent
          cases absent
      · rcases two with ⟨-, ⟨rfl, present⟩ | ⟨after, rfl, -, two⟩⟩
        · rw [absent] at present
          cases present
        · obtain ⟨rfl, rfl⟩ := induction one two
          exact ⟨rfl, rfl⟩

/-- The search ends at a record and redelivers it, or it leaves everything as it was. -/
theorem exec_replayFrom (formatter : Formatter) (eventId : String) (queues : List String)
    (choices : ℕ → ReplayChoice) (world : ReplayWorld) :
    (∃ index found, Found world choices eventId queues index found ∧
      (replayFrom formatter eventId queues).exec replayHandler choices world =
        (redeliver formatter eventId found).exec replayHandler
          (fun n => choices (n + (index + 1))) world) ∨
      (∀ index found, ¬Found world choices eventId queues index found) ∧
        ((replayFrom formatter eventId queues).exec replayHandler choices world).2 = world ∧
        ((replayFrom formatter eventId queues).exec replayHandler choices world).1 ≠ .ok true := by
  induction queues generalizing choices with
  | nil =>
      exact Or.inr ⟨fun index found => not_found_nil world choices eventId index found, rfl,
        by simp [replayFrom, Program.exec]⟩
  | cons head rest induction =>
      by_cases answered : (choices 0).reply = .answered
      · have next : ∀ answer, world.dlq head eventId = answer →
            (replayFrom formatter eventId (head :: rest)).exec replayHandler choices world =
              (answer.elim (replayFrom formatter eventId rest)
                (redeliver formatter eventId)).exec replayHandler (fun n => choices (n + 1))
                  world := by
          intro answer equality
          simp only [replayFrom, issue, Program.perform, Program.bind_eq_bind, Program.bind,
            Program.exec, replayHandler, reply, answered, equality]
          cases answer with
          | none => rfl
          | some raw => rfl
        cases held : world.dlq head eventId with
        | some raw =>
            left
            refine ⟨0, raw, ?_, next _ held⟩
            rw [found_cons]
            exact ⟨answered, Or.inl ⟨rfl, held⟩⟩
        | none =>
            rw [next _ held]
            rcases induction (fun n => choices (n + 1)) with ⟨index, found, search, equality⟩ |
              ⟨absent, unchanged, unreported⟩
            · left
              refine ⟨index + 1, found, ?_, ?_⟩
              · rw [found_cons]
                exact ⟨answered, Or.inr ⟨index, rfl, held, search⟩⟩
              · exact equality
            · right
              refine ⟨fun index found search => ?_, unchanged, unreported⟩
              rw [found_cons] at search
              obtain ⟨-, ⟨-, present⟩ | ⟨earlier, -, -, search⟩⟩ := search
              · rw [held] at present
                cases present
              · exact absent earlier found search
      · right
        have raised : (replayFrom formatter eventId (head :: rest)).exec replayHandler choices
            world = (Except.error .redisError, world) := by
          simp only [replayFrom, issue, Program.perform, Program.bind_eq_bind, Program.bind,
            Program.exec, replayHandler, reply]
          cases outcome : (choices 0).reply with
          | answered => exact absurd outcome answered
          | lost => rfl
          | unacknowledged => rfl
        refine ⟨fun index found search => ?_, by rw [raised], by rw [raised]; simp⟩
        rw [found_cons] at search
        exact answered search.1

/-! ## Records during a replay -/

/-- A record has been published to its stream. -/
def Published (formatter : Formatter) (raw : Option Value) (before after : ReplayWorld) : Prop :=
  ∃ now entry, replayEntry formatter raw now = some entry ∧
    after.entries = before.entries ++ [entry]

/-- A record leaves its queue only once it is published, and until then the replay does not report
success. -/
def Preserved (formatter : Formatter) (stream eventId : String) (raw : Option Value)
    (before : ReplayWorld) (result : Except ReplayFailure Bool) (after : ReplayWorld) : Prop :=
  (after.dlq stream eventId = none → Published formatter raw before after) ∧
    (¬Published formatter raw before after →
      after.dlq stream eventId = some raw ∧ result ≠ .ok true)

/-- The record found is published as this record would be, and its `XADD` takes effect. -/
def Delivers (formatter : Formatter) (choices : ℕ → ReplayChoice) (found raw : Option Value) :
    Prop :=
  (choices 1).reply ≠ .lost ∧ ∃ now entry, replayEntry formatter raw now = some entry ∧
    replayEntry formatter found (choices 0).now = some entry

/-- The clearing neither removes the record nor runs to its end. -/
def Spares (choices : ℕ → ReplayChoice) (stream : String) : Prop :=
  ¬Clears choices streams stream ∧ ∃ n < streams.length + 1, (choices n).reply ≠ .answered

theorem published_iff_delivers {formatter : Formatter} {raw found : Option Value}
    {choices : ℕ → ReplayChoice} {world after : ReplayWorld}
    (entries : after.entries = (world.published (replayEntry formatter found (choices 0).now)
      (choices 1)).entries) :
    Published formatter raw world after ↔ Delivers formatter choices found raw := by
  have appended : ∀ entry, (world.published (replayEntry formatter found (choices 0).now)
      (choices 1)).entries = world.entries ++ [entry] ↔ (choices 1).reply ≠ .lost ∧
        replayEntry formatter found (choices 0).now = some entry := by
    intro entry
    cases replayEntry formatter found (choices 0).now with
    | none => simp [ReplayWorld.published]
    | some held =>
        cases outcome : (choices 1).reply <;>
          simp [ReplayWorld.published, ReplayWorld.append, outcome]
  rw [Published, Delivers]
  rw [entries]
  simp only [appended]
  constructor
  · rintro ⟨now, entry, own, kept, shared⟩
    exact ⟨kept, now, entry, own, shared⟩
  · rintro ⟨kept, now, entry, own, shared⟩
    exact ⟨now, entry, own, kept, shared⟩

/-- A record found is published and cleared: another record keeps its place if it is published too
or the clearing passes it by. -/
theorem preserved_redeliver {formatter : Formatter} {stream eventId : String}
    {raw found : Option Value} (choices : ℕ → ReplayChoice) {world : ReplayWorld}
    (held : world.dlq stream eventId = some raw) (publishable : Publishable found) :
    Preserved formatter stream eventId raw world
        ((redeliver formatter eventId found).exec replayHandler choices world).1
        ((redeliver formatter eventId found).exec replayHandler choices world).2 ↔
      Delivers formatter choices found raw ∨ Spares (fun n => choices (n + 2)) stream := by
  have queue : (world.published (replayEntry formatter found (choices 0).now) (choices 1)).dlq =
      world.dlq := by
    simp only [ReplayWorld.published]
    split <;> rfl
  have cleared := cleared_clear eventId (fun n => choices (n + 2))
    (world.published (replayEntry formatter found (choices 0).now) (choices 1))
  rw [exec_redeliver publishable]
  dsimp only
  generalize (clear eventId).exec replayHandler (fun n => choices (n + 2))
    (world.published (replayEntry formatter found (choices 0).now) (choices 1)) = outcome at cleared ⊢
  obtain ⟨result, after⟩ := outcome
  have delivers : Published formatter raw world after ↔ Delivers formatter choices found raw :=
    published_iff_delivers cleared.entries
  have reported : result.map (fun _ => true) = .ok true ↔
      ∀ n < streams.length + 1, (choices (n + 2)).reply = .answered := by
    rw [← cleared.answered]
    cases result <;> simp [Except.map]
  have removed := cleared.removed stream
  have kept := cleared.kept stream
  rw [queue, held] at kept
  dsimp only at removed kept ⊢
  simp only [Preserved]
  rw [delivers]
  by_cases publishes : Delivers formatter choices found raw
  · simp only [publishes, implies_true, not_true, false_implies, and_self, true_or]
  · simp only [publishes, imp_false, not_false_eq_true, true_implies, false_or, Spares]
    rw [Ne, reported]
    constructor
    · rintro ⟨present, -, unreported⟩
      push Not at unreported
      exact ⟨fun clears => present (removed clears), unreported⟩
    · rintro ⟨spared, n, bound, unanswered⟩
      rw [kept spared]
      exact ⟨by simp, rfl, fun every => unanswered (every n bound)⟩

/-- The bus answers a failed append with a value, and the replay clears the record all the same. -/
theorem preserved_replay (formatter : Formatter) (stream eventId : String) (raw : Option Value)
    (choices : ℕ → ReplayChoice) (world : ReplayWorld)
    (held : world.dlq stream eventId = some raw) :
    Preserved formatter stream eventId raw world
        ((replay formatter eventId).exec replayHandler choices world).1
        ((replay formatter eventId).exec replayHandler choices world).2 ↔
      ∀ index found, Found world choices eventId streams index found → Publishable found →
        Delivers formatter (fun n => choices (n + (index + 1))) found raw ∨
          Spares (fun n => choices (n + (index + 3))) stream := by
  have unchanged : ∀ {result : Except ReplayFailure Bool}, result ≠ .ok true →
      Preserved formatter stream eventId raw world result world := by
    intro result unreported
    refine ⟨fun absent => ?_, fun _ => ⟨held, unreported⟩⟩
    rw [held] at absent
    cases absent
  rw [replay]
  rcases exec_replayFrom formatter eventId streams choices world with
    ⟨index, found, search, equality⟩ | ⟨absent, same, unreported⟩
  · rw [equality]
    by_cases publishable : Publishable found
    · have shifted : (fun n => choices (n + 2 + (index + 1))) =
          fun n => choices (n + (index + 3)) := by
        funext n
        rw [show n + 2 + (index + 1) = n + (index + 3) by omega]
      rw [preserved_redeliver _ held publishable, shifted]
      constructor
      · rintro safe other record search' -
        obtain ⟨rfl, rfl⟩ := search.unique search'
        exact safe
      · intro safe
        exact safe index found search publishable
    · rw [exec_redeliver_malformed publishable]
      refine ⟨fun _ other record search' publishable' => ?_, fun _ => unchanged (by simp)⟩
      rw [(search.unique search').2] at publishable'
      exact absurd publishable' publishable
  · rw [same]
    refine ⟨fun _ index found search => absurd search (absent index found), fun _ => ?_⟩
    exact unchanged unreported

/-- A dead letter of the orders stream. -/
def deadOrder : Value :=
  .dict [("stream", .str "orders"), ("event_id", .str "1-0"),
    ("payload", .dict [("symbol", .str "BTC/USD"), ("side", .str "buy")])]

/-- Queues that hold only the dead order. -/
def oneDeadLetter : ReplayWorld where
  dlq stream eventId := if stream = "orders" ∧ eventId = "1-0" then some (some deadOrder) else none

/-- Texts for the examples. -/
def plainFormatter : Formatter where
  float _ := "0.0"
  dumps _ := "{}"

theorem preserved_replay_answered :
    Preserved plainFormatter "orders" "1-0" (some deadOrder) oneDeadLetter
      ((replay plainFormatter "1-0").exec replayHandler (fun _ => {}) oneDeadLetter).1
      ((replay plainFormatter "1-0").exec replayHandler (fun _ => {}) oneDeadLetter).2 := by
  have first : Found oneDeadLetter (fun _ => {}) "1-0" streams 5 (some deadOrder) :=
    ⟨⟨streams.take 5, "orders", streams.drop 6, rfl, rfl, by decide, rfl⟩, fun _ _ => rfl⟩
  refine (preserved_replay plainFormatter "orders" "1-0" (some deadOrder) (fun _ => {})
    oneDeadLetter rfl).mpr fun index found search _ => ?_
  obtain ⟨-, rfl⟩ := first.unique search
  exact Or.inl ⟨by decide, "1970-01-01T00:00:00+00:00", _, rfl, rfl⟩

/-- The append of the dead order is lost: its record is gone, nothing is published, and the replay
reports success. -/
theorem replay_loses_record :
    ¬∀ (formatter : Formatter) (stream eventId : String) (raw : Option Value)
      (choices : ℕ → ReplayChoice) (world : ReplayWorld), world.dlq stream eventId = some raw →
        Preserved formatter stream eventId raw world
          ((replay formatter eventId).exec replayHandler choices world).1
          ((replay formatter eventId).exec replayHandler choices world).2 := by
  intro preserved
  have lost := preserved plainFormatter "orders" "1-0" (some deadOrder)
    (fun n => if n = 7 then { reply := .lost } else {}) oneDeadLetter rfl
  obtain ⟨now, entry, -, appended⟩ := lost.1 rfl
  have nothing : ((replay plainFormatter "1-0").exec replayHandler
      (fun n => if n = 7 then { reply := .lost } else {}) oneDeadLetter).2.entries = [] := rfl
  rw [nothing] at appended
  simp at appended

end TradingControl.Events
