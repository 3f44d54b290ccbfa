import TradingControl.Events.GroupIsolation

/-!
# Keys of the dead-letter queue

Records are held in one hash for each stream, under a field for the event id, and failure counters
under a key of their own for the event id.  All of them are keys of one Redis database, so this file
keeps what is stored under each text, whichever command put it there.
-/

namespace TradingControl.Events

open Effects Python

/-! ## Keys -/

/-- `REDIS_KEY_DLQ`. -/
def dlqKey (stream : String) : String := "dlq:" ++ stream

/-- `REDIS_KEY_DLQ_RETRIES`. -/
def retriesKey (eventId : String) : String := "dlq:retries:" ++ eventId

/-- What Redis holds under a key; the value of a field is `none` for a text that is no JSON. -/
inductive Held where
  | counter (retries : ℕ)
  | hash (records : Dict String (Option Value))

namespace Held

/-- `HGET`; `none` outside is the error of a key that holds no hash. -/
def hget (eventId : String) : Option Held → Option (Option (Option Value))
  | none => some none
  | some (.hash records) => some (records.lookup eventId)
  | some (.counter _) => none

/-- `HSET`. -/
def hset (eventId : String) (record : Value) : Option Held → Option Held
  | none => some (.hash [(eventId, some record)])
  | some (.hash records) => some (.hash (Dict.set eventId (some record) records))
  | some (.counter _) => none

/-- `HDEL`: a hash without fields is no key any more. -/
def hdel (eventId : String) : Option Held → Option (Option Held)
  | none => some none
  | some (.hash records) =>
      match records.filter fun field => field.1 ≠ eventId with
      | [] => some none
      | kept => some (some (.hash kept))
  | some (.counter _) => none

/-- `GET` of a counter. -/
def get : Option Held → Option (Option ℕ)
  | none => some none
  | some (.counter retries) => some (some retries)
  | some (.hash _) => none

/-- The field of a hash, as far as the key holds one. -/
def field (eventId : String) : Option Held → Option (Option Value)
  | some (.hash records) => records.lookup eventId
  | _ => none

end Held

/-- The streams, and what is held under the keys of the dead-letter queue. -/
structure DlqWorld where
  bus : BusWorld := {}
  keys : String → Option Held := fun _ => none

namespace DlqWorld

/-- Another value under a key. -/
def put (world : DlqWorld) (key : String) (held : Option Held) : DlqWorld :=
  { world with keys := Function.update world.keys key held }

/-- What a command on a counter finds: a counter may have expired, a hash never does. -/
def counter (world : DlqWorld) (choice : FanOutChoice) (eventId : String) : Option Held :=
  match world.keys (retriesKey eventId) with
  | some (.counter retries) => if choice.counterLost then none else some (.counter retries)
  | held => held

end DlqWorld

/-! ## Operations -/

/-- A command on a key of the queue: Redis refuses it where the key holds another kind of value. -/
def keyed {ε α : Type} (choice : FanOutChoice) (failure : ε) (before : DlqWorld)
    (effect : Option (α × DlqWorld)) : Except ε α × DlqWorld :=
  match effect, choice.reply with
  | none, _ => (.error failure, before)
  | some (answer, after), .answered => (.ok answer, after)
  | some _, .lost => (.error failure, before)
  | some (_, after), .unacknowledged => (.error failure, after)

namespace FanOut

variable (fanOut : FanOut)

/-- A consumer's operations; the ones that are on no key of the queue act on the streams. -/
def consumerKeys (name : String) (count : ℕ) :
    Handler consumerSignature ConsumerFailure FanOutChoice DlqWorld
  | .incr eventId, choice, world =>
      keyed choice .redisError world <| (Held.get (world.counter choice eventId)).map fun held =>
        (held.getD 0 + 1, world.put (retriesKey eventId) (some (.counter (held.getD 0 + 1))))
  | .expire _, choice, world => keyed choice .redisError world (some ((), world))
  | .getRetries eventId, choice, world =>
      keyed choice .redisError world <|
        (Held.get (world.counter choice eventId)).map fun held => (held, world)
  | .hset record, choice, world =>
      keyed choice .redisError world <|
        (Held.hset record.eventId
          (letterRecord record.stream record.eventId record.payload
            (fanOut.errorText record.error) record.retries choice.clock)
          (world.keys (dlqKey record.stream))).map fun held =>
            ((), world.put (dlqKey record.stream) (some held))
  | op, choice, world =>
      let (answer, after) := fanOut.consumerOps name count op choice { bus := world.bus }
      (answer, { world with bus := after.bus })

/-- Operations of a replay. -/
def replayKeys : Handler replaySignature ReplayFailure FanOutChoice DlqWorld
  | .hget stream eventId, choice, world =>
      keyed choice .redisError world <|
        (Held.hget eventId (world.keys (dlqKey stream))).map fun record => (record, world)
  | .hdel stream eventId, choice, world =>
      keyed choice .redisError world <|
        (Held.hdel eventId (world.keys (dlqKey stream))).map fun held =>
          ((), world.put (dlqKey stream) held)
  | .deleteRetries eventId, choice, world =>
      keyed choice .redisError world (some ((), world.put (retriesKey eventId) none))
  | op, choice, world =>
      let (answer, after) := replayOps op choice { bus := world.bus }
      (answer, { world with bus := after.bus })

end FanOut

/-! ## Calls -/

/-- A message as its consumer hands it to the queue: `eventId` is the id the consumer keys it by. -/
structure DlqMessage where
  stream : String
  group : String
  redisId : String
  eventId : String

/-- What is called for a message. -/
inductive DlqOperation where
  | push (payload : Dict String Value) (error : DlqError) (retries : ℕ)
  | shouldDlq
  | replay
  | clear
  | ack

/-- An operation on a message, and what the environment decides about its commands. -/
structure DlqCall where
  message : DlqMessage
  operation : DlqOperation
  choices : ℕ → FanOutChoice := fun _ => {}

namespace FanOut

variable (fanOut : FanOut) (name : String) (count : ℕ)

/-- The world that a call leaves behind. -/
def call (world : DlqWorld) (call : DlqCall) : DlqWorld :=
  match call.operation with
  | .push payload error retries =>
      ((push call.message.stream call.message.eventId payload error retries).exec
        (fanOut.consumerKeys name count) call.choices world).2
  | .shouldDlq =>
      ((shouldDlq call.message.eventId).exec (fanOut.consumerKeys name count) call.choices world).2
  | .replay =>
      ((replay fanOut.pipeline.formatter call.message.eventId).exec replayKeys call.choices world).2
  | .clear => ((clear call.message.eventId).exec replayKeys call.choices world).2
  | .ack =>
      ((acknowledge ⟨call.message.stream, call.message.group, call.message.redisId⟩).exec
        (fanOut.consumerKeys name count) call.choices world).2

def calls (calls : List DlqCall) (world : DlqWorld) : DlqWorld :=
  calls.foldl (fanOut.call name count) world

end FanOut

/-! ## Isolation -/

/-- What a world holds of a message: the value of its counter, and its record. -/
def DlqWorld.heldOf (world : DlqWorld) (message : DlqMessage) :
    Option Held × Option (Option Value) :=
  (world.keys (retriesKey message.eventId),
    Held.field message.eventId (world.keys (dlqKey message.stream)))

/-- After any calls on any messages, calls on the one message leave the other's counter and record
as they are. -/
def FanOut.Isolated (fanOut : FanOut) (message other : DlqMessage) : Prop :=
  ∀ (name : String) (count : ℕ) (earlier later : List DlqCall),
    (∀ call ∈ later, call.message = message) →
      (fanOut.calls name count later (fanOut.calls name count earlier {})).heldOf other =
        (fanOut.calls name count earlier {}).heldOf other

/-- The two messages have no key of the queue in common, up to the field. -/
structure KeptApart (message other : DlqMessage) : Prop where
  eventId : message.eventId ≠ other.eventId
  stream : message.stream ≠ "retries:" ++ other.eventId
  other : other.stream ≠ "retries:" ++ message.eventId

theorem retriesKey_eq_dlqKey (eventId : String) :
    retriesKey eventId = dlqKey ("retries:" ++ eventId) := by
  rw [dlqKey, retriesKey, ← String.append_assoc]
  rfl

theorem dlqKey_injective {first second : String} (same : dlqKey first = dlqKey second) :
    first = second :=
  String.append_right_inj _ |>.mp same

theorem retriesKey_injective {first second : String}
    (same : retriesKey first = retriesKey second) : first = second :=
  String.append_right_inj _ |>.mp same

/-! ## What a command leaves alone -/

/-- A command takes effect or leaves the world as it is. -/
theorem heldOf_keyed {ε α : Type} (choice : FanOutChoice) (failure : ε) {before : DlqWorld}
    {effect : Option (α × DlqWorld)} {other : DlqMessage}
    (takes : ∀ moved, effect = some moved → moved.2.heldOf other = before.heldOf other) :
    (keyed choice failure before effect).2.heldOf other = before.heldOf other := by
  cases effect with
  | none => rfl
  | some moved =>
      have moves := takes moved rfl
      cases reply : choice.reply with
      | answered => simpa only [keyed, reply] using moves
      | lost => simp only [keyed, reply]
      | unacknowledged => simpa only [keyed, reply] using moves

theorem lookup_filter_other {α : Type} {key other : String} (different : other ≠ key)
    (items : Dict String α) :
    (items.filter fun item => item.1 ≠ key).lookup other = items.lookup other := by
  induction items with
  | nil => rfl
  | cons item rest induction =>
      obtain ⟨held, value⟩ := item
      by_cases removed : held = key
      · subst removed
        simpa [List.lookup_cons, beq_false_of_ne different] using induction
      · by_cases found : other = held
        · simp [List.filter, removed, found]
        · simpa [List.filter, List.lookup_cons, removed, beq_false_of_ne found] using induction

namespace Held

variable {eventId other : String} {held : Option Held}

theorem field_hset (different : other ≠ eventId) {record : Value} {later : Held}
    (written : hset eventId record held = some later) :
    field other (some later) = field other held := by
  rcases held with _ | _ | records
  · obtain rfl := Option.some.inj written
    simp [field, List.lookup_cons, beq_false_of_ne different]
  · cases written
  · obtain rfl := Option.some.inj written
    simp [field, Dict.lookup_set, different]

theorem field_hdel (different : other ≠ eventId) {later : Option Held}
    (removed : hdel eventId held = some later) : field other later = field other held := by
  rcases held with _ | _ | records
  · obtain rfl := Option.some.inj removed
    rfl
  · cases removed
  · have same := lookup_filter_other different records
    simp only [hdel] at removed
    cases kept : records.filter fun field => field.1 ≠ eventId with
    | nil =>
        rw [kept] at removed same
        obtain rfl := Option.some.inj removed
        exact same
    | cons first rest =>
        rw [kept] at removed same
        obtain rfl := Option.some.inj removed
        exact same

end Held

/-- A new value under a key that is not the other's counter, and keeps the other's field. -/
theorem heldOf_put {world : DlqWorld} {key : String} {held : Option Held} {other : DlqMessage}
    (counter : key ≠ retriesKey other.eventId)
    (field : key = dlqKey other.stream →
      Held.field other.eventId held = Held.field other.eventId (world.keys key)) :
    (world.put key held).heldOf other = world.heldOf other := by
  have kept : (world.put key held).keys (retriesKey other.eventId) =
      world.keys (retriesKey other.eventId) := Function.update_of_ne counter.symm _ _
  have record : Held.field other.eventId ((world.put key held).keys (dlqKey other.stream)) =
      Held.field other.eventId (world.keys (dlqKey other.stream)) := by
    by_cases same : key = dlqKey other.stream
    · have moved : (world.put key held).keys (dlqKey other.stream) = held :=
        same ▸ Function.update_self _ _ _
      rw [moved, field same, same]
    · have kept : (world.put key held).keys (dlqKey other.stream) =
          world.keys (dlqKey other.stream) := Function.update_of_ne (Ne.symm same) _ _
      rw [kept]
  rw [DlqWorld.heldOf, DlqWorld.heldOf, kept, record]

/-- No stream of the bus is named like a counter. -/
theorem stream_ne_counter {stream : String} (member : stream ∈ streams) (eventId : String) :
    dlqKey stream ≠ retriesKey eventId := by
  intro same
  rw [retriesKey_eq_dlqKey] at same
  have start : stream.toList.take 8 = "retries:".toList := by
    rw [dlqKey_injective same, String.toList_append, List.take_left' (by decide)]
  have others : ∀ stream ∈ streams, stream.toList.take 8 ≠ "retries:".toList := by decide
  exact others stream member start

/-! ## Calls leave the other message alone -/

/-- Consumer operations that a call on a message may issue. -/
def ConsumerOp.For (message : DlqMessage) : ConsumerOp → Prop
  | .incr eventId => eventId = message.eventId
  | .expire _ => True
  | .hset record => record.stream = message.stream ∧ record.eventId = message.eventId
  | .xack _ => True
  | _ => False

/-- Replay operations that a call on a message may issue. -/
def ReplayOp.For (message : DlqMessage) : ReplayOp → Prop
  | .hdel stream eventId => stream ∈ streams ∧ eventId = message.eventId
  | .deleteRetries eventId => eventId = message.eventId
  | _ => True

section
variable {message other : DlqMessage} (apart : KeptApart message other)
include apart

theorem KeptApart.counters : retriesKey message.eventId ≠ retriesKey other.eventId :=
  fun same => apart.eventId (retriesKey_injective same)

theorem KeptApart.counter_ne_record : retriesKey message.eventId ≠ dlqKey other.stream := by
  rw [retriesKey_eq_dlqKey]
  exact fun same => apart.other (dlqKey_injective same).symm

theorem KeptApart.record_ne_counter : dlqKey message.stream ≠ retriesKey other.eventId := by
  rw [retriesKey_eq_dlqKey]
  exact fun same => apart.stream (dlqKey_injective same)

theorem KeptApart.heldOf_consumerKeys (fanOut : FanOut) (name : String) (count : ℕ)
    (op : ConsumerOp) (allowed : op.For message) (choice : FanOutChoice) (world : DlqWorld) :
    ((fanOut.consumerKeys name count) op choice world).2.heldOf other = world.heldOf other := by
  cases op with
  | incr eventId =>
      obtain rfl := allowed
      refine heldOf_keyed choice _ fun moved takes => ?_
      obtain ⟨held, -, rfl⟩ := Option.map_eq_some_iff.mp takes
      exact heldOf_put apart.counters fun same => absurd same apart.counter_ne_record
  | expire eventId =>
      refine heldOf_keyed choice _ fun moved takes => ?_
      obtain rfl := Option.some.inj takes
      rfl
  | hset record =>
      obtain ⟨stream, eventId⟩ := allowed
      refine heldOf_keyed choice _ fun moved takes => ?_
      obtain ⟨held, written, rfl⟩ := Option.map_eq_some_iff.mp takes
      rw [stream] at written ⊢
      exact heldOf_put apart.record_ne_counter fun _ =>
        Held.field_hset (eventId ▸ apart.eventId.symm) written
  | xack _ => rfl
  | _ => exact allowed.elim

theorem KeptApart.heldOf_replayKeys (op : ReplayOp) (allowed : op.For message)
    (choice : FanOutChoice) (world : DlqWorld) :
    (FanOut.replayKeys op choice world).2.heldOf other = world.heldOf other := by
  cases op with
  | hget stream eventId =>
      refine heldOf_keyed choice _ fun moved takes => ?_
      obtain ⟨held, -, rfl⟩ := Option.map_eq_some_iff.mp takes
      rfl
  | hdel stream eventId =>
      obtain ⟨member, rfl⟩ := allowed
      refine heldOf_keyed choice _ fun moved takes => ?_
      obtain ⟨held, removed, rfl⟩ := Option.map_eq_some_iff.mp takes
      exact heldOf_put (stream_ne_counter member _) fun _ =>
        Held.field_hdel apart.eventId.symm removed
  | deleteRetries eventId =>
      obtain rfl := allowed
      refine heldOf_keyed choice _ fun moved takes => ?_
      obtain rfl := Option.some.inj takes
      exact heldOf_put apart.counters fun same => absurd same apart.counter_ne_record
  | xadd stream fields => rfl
  | utcNow => rfl

end

theorem clearStreams_calls (message : DlqMessage) {queues : List String}
    (known : queues ⊆ streams) :
    (clearStreams message.eventId queues).Calls (ReplayOp.For message) := by
  induction queues with
  | nil => trivial
  | cons head rest induction =>
      refine Program.calls_bind (Program.calls_perform ?_) fun _ => induction ?_
      · exact ⟨known List.mem_cons_self, rfl⟩
      · exact fun _ member => known (List.mem_cons_of_mem _ member)

theorem clear_calls (message : DlqMessage) :
    (clear message.eventId).Calls (ReplayOp.For message) :=
  Program.calls_bind (clearStreams_calls message fun _ member => member) fun _ =>
    Program.calls_perform rfl

theorem publish_calls (message : DlqMessage) (formatter : Formatter) (stream payload : Value) :
    (publish formatter stream payload).Calls (ReplayOp.For message) := by
  cases payload with
  | dict event =>
      refine Program.calls_bind (Program.calls_perform trivial) fun now => ?_
      refine Program.calls_bind (Program.calls_attempt (Program.calls_perform trivial))
        fun sent => ?_
      cases sent <;> trivial
  | _ => trivial

theorem replayFrom_calls (message : DlqMessage) (formatter : Formatter) (queues : List String) :
    (replayFrom formatter message.eventId queues).Calls (ReplayOp.For message) := by
  induction queues with
  | nil => trivial
  | cons head rest induction =>
      refine Program.calls_bind (Program.calls_perform trivial) fun raw => ?_
      cases raw with
      | none => exact induction
      | some raw =>
          change (redeliver formatter message.eventId raw).Calls _
          unfold redeliver
          cases replayable raw with
          | none => trivial
          | some found =>
              exact Program.calls_bind (publish_calls message formatter _ _) fun _ =>
                Program.calls_bind (clear_calls message) fun _ => trivial

theorem KeptApart.heldOf_call {message other : DlqMessage} (apart : KeptApart message other)
    (fanOut : FanOut) (name : String) (count : ℕ) (world : DlqWorld) (call : DlqCall)
    (called : call.message = message) :
    (fanOut.call name count world call).heldOf other = world.heldOf other := by
  obtain ⟨target, operation, choices⟩ := call
  change target = message at called
  subst called
  have consumer : ∀ {α : Type} {program : Consuming α}, program.Calls (ConsumerOp.For target) →
        (program.exec (fanOut.consumerKeys name count) choices world).2.heldOf other =
          world.heldOf other := fun calls =>
    @Handler.exec_of_calls _ _ _ _ _ _ _ (fun later => later.heldOf other = world.heldOf other)
      (fun op allowed choice later kept =>
        (apart.heldOf_consumerKeys fanOut name count op allowed choice later).trans kept)
      _ calls choices _ rfl
  have replaying : ∀ {α : Type} {program : Replaying α}, program.Calls (ReplayOp.For target) →
      (program.exec FanOut.replayKeys choices world).2.heldOf other = world.heldOf other :=
    fun calls =>
    @Handler.exec_of_calls _ _ _ _ _ _ _ (fun later => later.heldOf other = world.heldOf other)
      (fun op allowed choice later kept =>
        (apart.heldOf_replayKeys op allowed choice later).trans kept)
      _ calls choices _ rfl
  cases operation with
  | push payload error retries => exact consumer (Program.calls_perform ⟨rfl, rfl⟩)
  | shouldDlq =>
      exact consumer (Program.calls_bind (Program.calls_perform rfl) fun _ =>
        Program.calls_bind (Program.calls_perform trivial) fun _ => trivial)
  | replay => exact replaying (replayFrom_calls _ _ _)
  | clear => exact replaying (clear_calls _)
  | ack =>
      refine consumer (Program.calls_bind (Program.calls_attempt (Program.calls_perform trivial))
        fun sent => ?_)
      cases sent <;> trivial

theorem KeptApart.heldOf_calls {message other : DlqMessage} (apart : KeptApart message other)
    (fanOut : FanOut) (name : String) (count : ℕ) (world : DlqWorld) {calls : List DlqCall}
    (called : ∀ call ∈ calls, call.message = message) :
    (fanOut.calls name count calls world).heldOf other = world.heldOf other := by
  induction calls generalizing world with
  | nil => rfl
  | cons call rest induction =>
      have first := apart.heldOf_call fanOut name count world call (called call List.mem_cons_self)
      rw [FanOut.calls, List.foldl_cons, ← FanOut.calls]
      rw [induction _ fun call member => called call (List.mem_cons_of_mem _ member), first]

/-! ## Calls that reach the other message -/

/-- Counting a failure of one message counts it for every message with its event id. -/
theorem not_isolated_of_eventId (fanOut : FanOut) {message other : DlqMessage}
    (same : message.eventId = other.eventId) : ¬fanOut.Isolated message other := by
  intro isolated
  have kept := congrArg Prod.fst (isolated "" 0 [] [⟨message, .shouldDlq, fun _ => {}⟩]
    fun call member => by rw [List.mem_singleton.mp member])
  simp [FanOut.calls, FanOut.call, shouldDlq, await, Program.perform, Program.bind, Program.exec,
    FanOut.consumerKeys, keyed, DlqWorld.counter, Held.get, DlqWorld.put, DlqWorld.heldOf,
    same] at kept

/-- A record of a stream that is named like the other's counter takes the counter's place. -/
theorem not_isolated_of_stream (fanOut : FanOut) {message other : DlqMessage}
    (same : message.stream = "retries:" ++ other.eventId) : ¬fanOut.Isolated message other := by
  intro isolated
  have kept := congrArg Prod.fst (isolated "" 0 []
    [⟨message, .push [] (.exception .redisError) 1, fun _ => {}⟩]
    fun call member => by rw [List.mem_singleton.mp member])
  simp [FanOut.calls, FanOut.call, push, await, Program.perform, Program.exec,
    FanOut.consumerKeys, keyed, Held.hset, DlqWorld.put, DlqWorld.heldOf, same,
    ← retriesKey_eq_dlqKey] at kept

theorem clearStreams_of_absent (eventId : String) (queues : List String) (world : DlqWorld)
    (absent : ∀ stream ∈ queues, world.keys (dlqKey stream) = none) :
    (clearStreams eventId queues).exec FanOut.replayKeys (fun _ => {}) world = (.ok (), world) := by
  induction queues with
  | nil => rfl
  | cons head rest induction =>
      have empty : world.keys (dlqKey head) = none := absent head List.mem_cons_self
      have same : world.put (dlqKey head) none = world := by
        rw [DlqWorld.put, ← empty, Function.update_eq_self]
      rw [clearStreams, issue, Program.bind_eq_bind, Program.exec_perform_bind]
      simp only [FanOut.replayKeys, empty, Held.hdel, Option.map_some, keyed, same]
      exact induction fun stream member => absent stream (List.mem_cons_of_mem _ member)

/-- Clearing where the streams have no records drops the key of the counter, whatever it holds. -/
theorem call_clear_of_absent (fanOut : FanOut) (name : String) (count : ℕ) (message : DlqMessage)
    (world : DlqWorld) (absent : ∀ stream ∈ streams, world.keys (dlqKey stream) = none) :
    fanOut.call name count world ⟨message, .clear, fun _ => {}⟩ =
      world.put (retriesKey message.eventId) none := by
  have cleared := clearStreams_of_absent message.eventId streams world absent
  simp only [FanOut.call, clear, Program.bind_eq_bind]
  rw [Program.exec_bind_of_ok cleared, issue, Program.exec_perform]
  rfl

/-- Clearing a message whose counter is named like the other's stream drops the other's record. -/
theorem not_isolated_of_other (fanOut : FanOut) {message other : DlqMessage}
    (same : other.stream = "retries:" ++ message.eventId) : ¬fanOut.Isolated message other := by
  intro isolated
  have kept := congrArg Prod.snd (isolated "" 0
    [⟨other, .push [] (.exception .redisError) 1, fun _ => {}⟩]
    [⟨message, .clear, fun _ => {}⟩]
    fun call member => by rw [List.mem_singleton.mp member])
  simp only [FanOut.calls, List.foldl_cons, List.foldl_nil] at kept
  rw [call_clear_of_absent] at kept
  · simp [FanOut.call, push, await, Program.perform, Program.exec, FanOut.consumerKeys, keyed,
      Held.hset, Held.field, DlqWorld.put, DlqWorld.heldOf, same, ← retriesKey_eq_dlqKey] at kept
  · intro stream member
    have different : dlqKey stream ≠ dlqKey other.stream := by
      rw [same, ← retriesKey_eq_dlqKey]
      exact stream_ne_counter member _
    simp [FanOut.call, push, await, Program.perform, Program.exec, FanOut.consumerKeys, keyed,
      Held.hset, DlqWorld.put, different]

/-- Two messages are isolated exactly when their event ids differ and neither stream is named like
the other's counter. -/
theorem isolated_iff (fanOut : FanOut) (message other : DlqMessage) :
    fanOut.Isolated message other ↔
      message.eventId ≠ other.eventId ∧ message.stream ≠ "retries:" ++ other.eventId ∧
        other.stream ≠ "retries:" ++ message.eventId := by
  constructor
  · intro isolated
    refine ⟨fun same => ?_, fun same => ?_, fun same => ?_⟩
    · exact not_isolated_of_eventId fanOut same isolated
    · exact not_isolated_of_stream fanOut same isolated
    · exact not_isolated_of_other fanOut same isolated
  · rintro ⟨eventId, stream, otherStream⟩ name count earlier later called
    exact KeptApart.heldOf_calls ⟨eventId, stream, otherStream⟩ fanOut name count _ called

/-- Two streams give their first messages of a millisecond the same id. -/
theorem sameRedisId_not_isolated :
    ¬∀ message other : DlqMessage,
      message.stream ≠ other.stream ∨ message.group ≠ other.group →
        plainFanOut.Isolated message other := by
  intro isolated
  have apart := isolated ⟨"signals", "workers", "5-0", "5-0"⟩
    ⟨"decisions", "workers", "5-0", "5-0"⟩ (Or.inl (by decide))
  refine not_isolated_of_eventId plainFanOut ?_ apart
  rfl

end TradingControl.Events
