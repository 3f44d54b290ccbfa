import TradingControl.Events.MultiStreamAgent
import TradingControl.Streams.Stream

/-!
# A consumer after its restart

The operations of a consumer over streams and their pending lists, while Redis answers.  Between two
operations the others append, trim, read, claim and acknowledge as they like; they do not move a
group back.
-/

namespace TradingControl.Events

open Effects Python Streams

/-- Streams of events, with the groups and consumers by name. -/
abbrev EventStream := Streams.Stream (List (String × Value)) String

/-! ## Commands of the event bus -/

/-- An entry as the bus hands it on. -/
def messageOf (entry : Streams.Entry (List (String × Value))) : Message where
  id := idText entry.id
  data := entry.data

namespace EventStream

/-- `EventBus.consume`: a group that is missing is made at the end of the stream. -/
def consume (stream : EventStream) (group consumer : String) (count now : ℕ) :
    List Message × EventStream :=
  match stream.read group consumer count now with
  | some (entries, later) => (entries.map messageOf, later)
  | none => ([], stream.createGroup group)

/-- `EventBus.reclaim_stale`: one page of a hundred messages that were idle for a minute. -/
def reclaimStale (stream : EventStream) (group consumer : String) (now : ℕ) :
    List Message × EventStream :=
  match stream.autoclaim group consumer 60000 100 now with
  | some (entries, later) => (entries.map messageOf, later)
  | none => ([], stream.createGroup group)

/-- `XACK` by the text of the id: the number of messages acknowledged. -/
def xack (stream : EventStream) (group eventId : String) : ℕ × EventStream :=
  match (stream.groups group).bind fun held =>
      held.pending.find? fun entry => idText entry.id = eventId with
  | some entry => (1, stream.acknowledge group entry.id)
  | none => (0, stream)

end EventStream

/-! ## World -/

/-- What others do to a stream. -/
structure Interference where
  change : EventStream → EventStream
  forward : ∀ stream group position, stream.Beyond group position →
    (change stream).Beyond group position

/-- What the environment decides about one operation. -/
structure RestartChoice where
  running : Bool := true
  outcome : ProcessOutcome := .returned
  now : ℕ := 0
  others : String → Interference := fun _ => ⟨id, fun _ _ _ beyond => beyond⟩

/-- Streams, failure counters, and what has happened since the restart: records written to the
dead-letter queue, and messages handed to `process`. -/
structure RestartWorld where
  streams : String → EventStream
  retries : String → Option ℕ := fun _ => none
  dlqWrites : List DlqRecord := []
  handed : List GroupMessage := []

namespace RestartWorld

def setStream (world : RestartWorld) (name : String) (stream : EventStream) : RestartWorld :=
  { world with streams := Function.update world.streams name stream }

/-- The others' turn. -/
def interfered (world : RestartWorld) (choice : RestartChoice) : RestartWorld :=
  { world with streams := fun name => (choice.others name).change (world.streams name) }

end RestartWorld

/-- Answer one operation of a consumer that reads so many messages at a time. -/
def respond (name : String) (count : ℕ) :
    Handler consumerSignature ConsumerFailure RestartChoice RestartWorld
  | .isRunning, choice, world => (.ok choice.running, world)
  | .consume stream group, choice, world =>
      let read := (world.streams stream).consume group name count choice.now
      (.ok read.1, world.setStream stream read.2)
  | .reclaimStale stream group, choice, world =>
      let claimed := (world.streams stream).reclaimStale group name choice.now
      (.ok claimed.1, world.setStream stream claimed.2)
  | .backoffAndCheckShutdown, choice, world => (.ok choice.running, world)
  | .process message _, choice, world =>
      let handed := { world with handed := world.handed ++ [message] }
      match choice.outcome with
      | .returned => (.ok (), handed)
      | .raised error => (.error (.processFailed error), handed)
      | .timedOut => (.error .timedOut, handed)
  | .incr eventId, _, world =>
      let retries := (world.retries eventId).getD 0 + 1
      (.ok retries, { world with retries := Function.update world.retries eventId (some retries) })
  | .expire _, _, world => (.ok (), world)
  | .getRetries eventId, _, world => (.ok (world.retries eventId), world)
  | .hset record, _, world => (.ok (), { world with dlqWrites := world.dlqWrites ++ [record] })
  | .xack message, _, world =>
      let acked := (world.streams message.stream).xack message.group message.eventId
      (.ok acked.1, world.setStream message.stream acked.2)

/-- An operation and the others' turn after it. -/
def restartHandler (name : String) (count : ℕ) :
    Handler consumerSignature ConsumerFailure RestartChoice RestartWorld :=
  fun op choice world =>
    ((respond name count op choice world).1,
      (respond name count op choice world).2.interfered choice)

/-! ## Restarted consumers -/

/-- The first part of `_run`: one page of stale messages. -/
def reclaimFirst (consumer : Consumer) : Consuming Unit := do
  match ← (await (.reclaimStale consumer.stream consumer.group)).attempt with
  | .ok reclaimed => handleMessages consumer reclaimed
  | .error _ => .ret ()

theorem runConsumer_eq (consumer : Consumer) (polls : ℕ) :
    runConsumer consumer polls =
      (reclaimFirst consumer).bind fun _ => poll consumer polls := by
  rw [runConsumer, reclaimFirst]
  simp only [Program.bind_eq_bind, Program.bind_assoc]
  congr 1
  funext outcome
  cases outcome <;> rfl

/-- A consumer of either base class. -/
inductive RestartedConsumer where
  | baseStream (consumer : Consumer) (name : String)
  | multiStream (agent : MultiStreamAgent)

namespace RestartedConsumer

/-- Name that its messages are pending under. -/
def name : RestartedConsumer → String
  | .baseStream _ name => name
  | .multiStream agent => agent.consumer

def group : RestartedConsumer → String
  | .baseStream consumer _ => consumer.group
  | .multiStream agent => agent.group

def streams : RestartedConsumer → List String
  | .baseStream consumer _ => [consumer.stream]
  | .multiStream agent => agent.streams

/-- Messages read at a time. -/
def count : RestartedConsumer → ℕ
  | .baseStream _ _ => 10
  | .multiStream _ => 20

/-- What `start` does to the streams: an agent makes its group wherever it is missing. -/
def subscribed : RestartedConsumer → RestartWorld → RestartWorld
  | .baseStream _ _, world => world
  | .multiStream agent, world =>
      { world with
        streams := fun name =>
          if name ∈ agent.streams ∧ (world.streams name).groups agent.group = none then
            (world.streams name).createGroup agent.group
          else world.streams name }

/-- Everything before the reading loop. -/
def startUp : RestartedConsumer → Consuming Unit
  | .baseStream consumer _ => reclaimFirst consumer
  | .multiStream _ => .ret ()

/-- The reading loop, up to a number of rounds. -/
def steady : RestartedConsumer → ℕ → Consuming Unit
  | .baseStream consumer _, rounds => poll consumer rounds
  | .multiStream agent, rounds => agent.run rounds

/-- `_run`. -/
def run : RestartedConsumer → ℕ → Consuming Unit
  | .baseStream consumer _, rounds => runConsumer consumer rounds
  | .multiStream agent, rounds => agent.run rounds

end RestartedConsumer

end TradingControl.Events

/-!
# Messages stranded in a pending list

A restarted consumer hands a pending message to `process` again only if the one page it claims at
its start reaches the message; an agent claims none.  The reading loop asks for new messages only,
whatever the others do meanwhile.
-/

namespace TradingControl.Events

open Effects Python Streams

/-! ## Recovered messages -/

/-- The message was handed to `process` or dead-lettered since the restart. -/
def GroupMessage.Recovered (message : GroupMessage) (world : RestartWorld) : Prop :=
  message ∈ world.handed ∨
    ∃ record ∈ world.dlqWrites, record.stream = message.stream ∧ record.eventId = message.eventId

instance (message : GroupMessage) (world : RestartWorld) : Decidable (message.Recovered world) :=
  inferInstanceAs (Decidable (_ ∨ _))

/-- The operation hands the message to `process` or writes its record. -/
def ConsumerOp.Recovers (message : GroupMessage) : ConsumerOp → Prop
  | .process received _ => received = message
  | .hset record => record.stream = message.stream ∧ record.eventId = message.eventId
  | _ => False

/-- The operation does neither. -/
def ConsumerOp.Spares (message : GroupMessage) (op : ConsumerOp) : Prop := ¬op.Recovers message

section Handler

variable {name : String} {count : ℕ} {message : GroupMessage}

theorem recovered_after_iff (op : ConsumerOp) (choice : RestartChoice) (world : RestartWorld) :
    message.Recovered (restartHandler name count op choice world).2 ↔
      op.Recovers message ∨ message.Recovered world := by
  cases op with
  | process received data =>
      simp only [restartHandler, respond, RestartWorld.interfered, GroupMessage.Recovered,
        ConsumerOp.Recovers]
      cases choice.outcome <;> simp [or_assoc, or_left_comm, eq_comm]
  | hset record =>
      simp only [restartHandler, respond, RestartWorld.interfered, GroupMessage.Recovered,
        ConsumerOp.Recovers, List.mem_append, List.mem_singleton, or_and_right, exists_or,
        exists_eq_left]
      rw [← or_assoc, or_comm]
  | _ =>
      exact ⟨.inr, fun recovered => recovered.resolve_left id⟩

theorem recovered_kept (op : ConsumerOp) (choice : RestartChoice) (world : RestartWorld)
    (recovered : message.Recovered world) :
    message.Recovered (restartHandler name count op choice world).2 :=
  (recovered_after_iff op choice world).mpr (.inr recovered)

/-! ## Positions -/

variable {stream : EventStream} {group : String} {position : ℕ}

theorem EventStream.beyond_consume (beyond : stream.Beyond group position) (other consumer : String)
    (count now : ℕ) :
    (EventStream.consume stream other consumer count now).2.Beyond group position := by
  rw [EventStream.consume]
  split
  · next entries later answered => exact (beyond.read answered).1
  · exact beyond.createGroup other

/-- Messages that a group is given come after every position it has passed. -/
theorem EventStream.id_consume (beyond : stream.Beyond group position) (consumer : String)
    (count now : ℕ) {received : Message}
    (member : received ∈ (EventStream.consume stream group consumer count now).1) {id : ℕ}
    (passed : id ≤ position) : received.id ≠ idText id := by
  rw [EventStream.consume] at member
  split at member
  · next entries later answered =>
      obtain ⟨entry, isEntry, rfl⟩ := List.mem_map.mp member
      intro same
      have later := (beyond.read answered).2 rfl entry isEntry
      have sameId : entry.id = id := idText_injective same
      omega
  · simp at member

theorem EventStream.beyond_reclaimStale (beyond : stream.Beyond group position)
    (other consumer : String) (now : ℕ) :
    (EventStream.reclaimStale stream other consumer now).2.Beyond group position := by
  rw [EventStream.reclaimStale]
  split
  · next entries later answered => exact beyond.autoclaim answered
  · exact beyond.createGroup other

theorem EventStream.beyond_xack (beyond : stream.Beyond group position) (other eventId : String) :
    (EventStream.xack stream other eventId).2.Beyond group position := by
  rw [EventStream.xack]
  split
  · exact beyond.acknowledge other _
  · exact beyond

theorem beyond_setStream {world : RestartWorld} {held : String}
    (beyond : (world.streams held).Beyond group position) {other : String} {later : EventStream}
    (moved : other = held → later.Beyond group position) :
    ((world.setStream other later).streams held).Beyond group position := by
  by_cases same : held = other
  · subst same
    simpa [RestartWorld.setStream] using moved rfl
  · simpa [RestartWorld.setStream, same] using beyond

/-- No operation, and none of the others, moves a group back. -/
theorem beyond_kept (op : ConsumerOp) (choice : RestartChoice) {world : RestartWorld}
    {held : String} (beyond : (world.streams held).Beyond group position) :
    ((restartHandler name count op choice world).2.streams held).Beyond group position := by
  refine (choice.others held).forward _ _ _ ?_
  cases op with
  | consume stream other =>
      refine beyond_setStream beyond ?_
      rintro rfl
      exact EventStream.beyond_consume beyond other name count choice.now
  | reclaimStale stream other =>
      refine beyond_setStream beyond ?_
      rintro rfl
      exact EventStream.beyond_reclaimStale beyond other name choice.now
  | xack received =>
      refine beyond_setStream beyond ?_
      rintro rfl
      exact EventStream.beyond_xack beyond received.group received.eventId
  | process received data =>
      simp only [respond]
      cases choice.outcome <;> exact beyond
  | _ => exact beyond

end Handler

/-! ## Messages that the reading loop never gets -/

/-- The message is not recovered, and its group is past it. -/
structure Stranded (message : GroupMessage) (position : ℕ) (world : RestartWorld) : Prop where
  unrecovered : ¬message.Recovered world
  passed : (world.streams message.stream).Beyond message.group position

section Stranded

variable {name : String} {count : ℕ} {message : GroupMessage} {position : ℕ}
  {world : RestartWorld}

theorem Stranded.kept {op : ConsumerOp} (apart : op.Spares message) (choice : RestartChoice)
    {world : RestartWorld} (stranded : Stranded message position world) :
    Stranded message position (restartHandler name count op choice world).2 where
  unrecovered recovered :=
    ((recovered_after_iff op choice world).mp recovered).elim apart stranded.unrecovered
  passed := beyond_kept op choice stranded.passed

/-- A program that does not recover the message leaves it stranded. -/
theorem Stranded.wp {α : Type} {program : Consuming α}
    (calls : program.Calls (ConsumerOp.Spares message)) {world : RestartWorld}
    (stranded : Stranded message position world)
    {post : Except ConsumerFailure α → RestartWorld → Prop}
    (finish : ∀ outcome world, Stranded message position world → post outcome world) :
    program.wp ((restartHandler name count).demonic fun _ => True) post world :=
  Program.wp_of_calls
    (fun _ apart _ _ stranded continues choice _ => continues _ _ (stranded.kept apart choice))
    calls stranded finish

theorem calls_await {op : ConsumerOp} (apart : op.Spares message) :
    (await op).Calls (ConsumerOp.Spares message) :=
  Program.calls_perform apart

theorem calls_acknowledge (received : GroupMessage) :
    (acknowledge received).Calls (ConsumerOp.Spares message) := by
  refine Program.calls_bind (Program.calls_attempt (calls_await fun recovers => recovers)) ?_
  intro outcome
  cases outcome <;> trivial

theorem calls_push {stream eventId : String} (payload : List (String × Value)) (error : DlqError)
    (retries : ℕ) (apart : ¬(stream = message.stream ∧ eventId = message.eventId)) :
    (push stream eventId payload error retries).Calls (ConsumerOp.Spares message) :=
  calls_await apart

theorem calls_handleMessage {consumer : Consumer} {received : Message}
    (apart : ¬(consumer.stream = message.stream ∧ received.id = message.eventId)) :
    (handleMessage consumer received).Calls (ConsumerOp.Spares message) := by
  have other : consumer.message received.id ≠ message := by
    rintro rfl
    exact apart ⟨rfl, rfl⟩
  simp only [handleMessage]
  split
  · trivial
  · exact Program.calls_bind (calls_push _ _ _ apart) fun _ =>
      Program.calls_bind (calls_acknowledge _) fun _ => trivial
  · refine Program.calls_bind (Program.calls_attempt (Program.calls_bind ?_ fun _ =>
      calls_acknowledge _)) fun outcome => ?_
    · refine Program.calls_bind (Program.calls_attempt (calls_await other)) fun outcome => ?_
      rcases outcome with error | _
      · cases error <;> trivial
      · trivial
    · rcases outcome with error | _
      · refine Program.calls_bind (Program.calls_attempt ?_) fun _ => trivial
        refine Program.calls_bind (Program.calls_bind (calls_await fun recovers => recovers)
          fun _ => Program.calls_bind (calls_await fun recovers => recovers) fun _ => trivial)
          fun exhausted => ?_
        cases exhausted
        · trivial
        · exact Program.calls_bind (calls_await fun recovers => recovers) fun _ =>
            Program.calls_bind (calls_push _ _ _ apart) fun _ =>
              Program.calls_bind (calls_acknowledge _) fun _ => trivial
      · trivial

theorem calls_handleMessages {consumer : Consumer} {messages : List Message}
    (apart : ∀ received ∈ messages,
      ¬(consumer.stream = message.stream ∧ received.id = message.eventId)) :
    (handleMessages consumer messages).Calls (ConsumerOp.Spares message) := by
  induction messages with
  | nil => trivial
  | cons received rest induction =>
      refine Program.calls_bind (calls_await fun recovers => recovers) fun running => ?_
      cases running
      · trivial
      · exact Program.calls_bind (calls_handleMessage (apart received (by simp))) fun _ =>
          induction fun later member => apart later (by simp [member])

/-! ### The reading loop -/

/-- An operation leaves the message stranded, and the program goes on. -/
theorem Stranded.wp_await (stranded : Stranded message position world) (op : ConsumerOp)
    (apart : op.Spares message)
    {post : Except ConsumerFailure op.Answer → RestartWorld → Prop}
    (finish : ∀ outcome world, Stranded message position world → post outcome world) :
    (await op).wp ((restartHandler name count).demonic fun _ => True) post world :=
  stranded.wp (calls_await apart) finish

theorem Stranded.wp_pollOnce (stranded : Stranded message position world) {consumer : Consumer}
    (own : consumer.stream = message.stream → consumer.group = message.group) {entryId : ℕ}
    (isText : message.eventId = idText entryId) (within : entryId ≤ position) :
    (pollOnce consumer).wp ((restartHandler name count).demonic fun _ => True)
      (fun _ world => Stranded message position world) world := by
  rw [pollOnce, Program.bind_eq_bind, Program.wp_bind, Program.wp_attempt, Program.bind_eq_bind,
    Program.wp_bind, await, Program.wp_perform]
  intro choice _
  have after := @Stranded.kept name count message position
    (.consume consumer.stream consumer.group) id choice world stranded
  refine after.wp (calls_handleMessages fun received member => ?_) fun outcome world stranded => ?_
  · rintro ⟨sameStream, sameId⟩
    have passed := stranded.passed
    rw [← sameStream, ← own sameStream] at passed
    exact EventStream.id_consume passed name count choice.now member within (sameId.trans isText)
  · rcases outcome with error | _
    · cases error with
      | redisError =>
          exact stranded.wp_await .backoffAndCheckShutdown id fun _ _ stranded => stranded
      | _ => exact stranded
    · exact stranded

theorem Stranded.wp_poll (stranded : Stranded message position world) {consumer : Consumer}
    (own : consumer.stream = message.stream → consumer.group = message.group) {entryId : ℕ}
    (isText : message.eventId = idText entryId) (within : entryId ≤ position) (polls : ℕ) :
    (poll consumer polls).wp ((restartHandler name count).demonic fun _ => True)
      (fun _ world => Stranded message position world) world := by
  induction polls generalizing world with
  | zero => exact stranded
  | succ polls induction =>
      rw [poll, Program.bind_eq_bind, Program.wp_bind]
      refine stranded.wp_await .isRunning id fun outcome world stranded => ?_
      rcases outcome with error | running
      · exact stranded
      · cases running with
        | false => exact stranded
        | true =>
            rw [Program.andThen_ok, if_pos rfl, Program.bind_eq_bind, Program.wp_bind]
            refine Program.wp_mono (Handler.demonic_monotone _ _) (fun outcome world stranded => ?_)
              (stranded.wp_pollOnce own isText within)
            rcases outcome with error | goesOn
            · exact stranded
            · cases goesOn with
              | false => exact stranded
              | true => exact induction stranded

/-! ### The loop of an agent -/

theorem calls_agentHandleMessages {agent : MultiStreamAgent} {stream : String}
    {messages : List Message}
    (apart : ∀ received ∈ messages,
      ¬(stream = message.stream ∧ received.id = message.eventId)) :
    (agent.handleMessages stream messages).Calls (ConsumerOp.Spares message) := by
  induction messages with
  | nil => trivial
  | cons received rest induction =>
      have own := apart received (by simp)
      have other : agent.message stream received.id ≠ message := by
        rintro rfl
        exact own ⟨rfl, rfl⟩
      refine Program.calls_bind (Program.calls_bind (Program.calls_attempt (Program.calls_bind
        (calls_await other) fun _ => calls_acknowledge _)) fun outcome => ?_) fun _ =>
          induction fun later member => apart later (by simp [member])
      cases outcome with
      | error error =>
          exact Program.calls_bind (Program.calls_attempt (Program.calls_bind
            (calls_push _ _ _ own) fun _ => calls_acknowledge _)) fun _ => trivial
      | ok _ => trivial

theorem Stranded.wp_pollStreams (stranded : Stranded message position world)
    {agent : MultiStreamAgent} (own : agent.group = message.group) {entryId : ℕ}
    (isText : message.eventId = idText entryId) (within : entryId ≤ position)
    (streams : List String) :
    (agent.pollStreams streams).wp ((restartHandler name count).demonic fun _ => True)
      (fun _ world => Stranded message position world) world := by
  induction streams generalizing world with
  | nil => exact stranded
  | cons stream rest induction =>
      rw [MultiStreamAgent.pollStreams, Program.bind_eq_bind, Program.wp_bind, await,
        Program.wp_perform]
      intro choice _
      have after := @Stranded.kept name count message position (.consume stream agent.group) id
        choice world stranded
      change ((agent.handleMessages stream _).bind fun _ => agent.pollStreams rest).wp _ _ _
      rw [Program.wp_bind]
      refine after.wp (calls_agentHandleMessages fun received member => ?_) fun outcome world
        stranded => ?_
      · rintro ⟨sameStream, sameId⟩
        have passed := stranded.passed
        rw [← sameStream, ← own] at passed
        exact EventStream.id_consume passed name count choice.now member within
          (sameId.trans isText)
      · cases outcome with
        | error error => exact stranded
        | ok _ => exact induction stranded

theorem Stranded.wp_run (stranded : Stranded message position world)
    {agent : MultiStreamAgent} (own : agent.group = message.group) {entryId : ℕ}
    (isText : message.eventId = idText entryId) (within : entryId ≤ position) (rounds : ℕ) :
    (agent.run rounds).wp ((restartHandler name count).demonic fun _ => True)
      (fun _ world => Stranded message position world) world := by
  induction rounds generalizing world with
  | zero => exact stranded
  | succ rounds induction =>
      rw [MultiStreamAgent.run, Program.bind_eq_bind, Program.wp_bind]
      refine stranded.wp_await .isRunning id fun outcome world stranded => ?_
      rcases outcome with error | running
      · exact stranded
      · cases running with
        | false => exact stranded
        | true =>
            rw [Program.andThen_ok, if_pos rfl, Program.bind_eq_bind, Program.wp_bind]
            refine Program.wp_mono (Handler.demonic_monotone _ _) (fun outcome world stranded => ?_)
              (stranded.wp_pollStreams own isText within agent.streams)
            cases outcome with
            | error error => exact stranded
            | ok _ => exact induction stranded

end Stranded

/-! ## Messages that are claimed -/

section Claimed

variable {name : String} {count : ℕ} {world : RestartWorld}

def AllRecovered (messages : List GroupMessage) (world : RestartWorld) : Prop :=
  ∀ message ∈ messages, message.Recovered world

theorem allRecovered_kept {messages : List GroupMessage} (op : ConsumerOp) (choice : RestartChoice)
    (world : RestartWorld) (recovered : AllRecovered messages world) :
    AllRecovered messages (restartHandler name count op choice world).2 :=
  fun message member => recovered_kept op choice world (recovered message member)

/-- A message that is handled is recovered, whatever becomes of it, unless its schema version
cannot be hashed. -/
theorem wp_handleMessage_recovers (consumer : Consumer) (received : Message)
    {done : List GroupMessage} (recovered : AllRecovered done world) :
    (handleMessage consumer received).wp
      ((restartHandler name count).demonic fun choice => choice.running = true)
      (fun outcome world => outcome = .ok () →
        AllRecovered (consumer.message received.id :: done) world) world := by
  have reached : ∀ op : ConsumerOp, op.Recovers (consumer.message received.id) →
      ∀ choice world, AllRecovered done world →
        AllRecovered (consumer.message received.id :: done)
          (restartHandler name count op choice world).2 := by
    intro op recovers choice world recovered message member
    rcases List.mem_cons.mp member with rfl | isDone
    · exact (recovered_after_iff op choice world).mpr (.inl recovers)
    · exact recovered_kept op choice world (recovered message isDone)
  cases accepted : acceptedSchemaVersion (schemaVersion received.backfilled) with
  | none =>
      simp only [handleMessage, accepted]
      intro finished
      cases finished
  | some valid =>
      have first : ∃ op, (handleMessage consumer received).pending = some op ∧
          op.Recovers (consumer.message received.id) := by
        cases valid with
        | false =>
            refine ⟨.hset ⟨consumer.stream, received.id, received.backfilled,
              .invalidSchemaVersion (schemaVersion received.backfilled), 0⟩, ?_, rfl, rfl⟩
            simp only [handleMessage, accepted]
            rfl
        | true =>
            refine ⟨.process (consumer.message received.id) received.backfilled, ?_, rfl⟩
            simp only [handleMessage, accepted]
            rfl
      obtain ⟨op, isFirst, recovers⟩ := first
      exact Program.wp_mono (Handler.demonic_monotone _ _) (fun _ _ all _ => all)
        (Handler.wp_of_first allRecovered_kept isFirst (reached op recovers) recovered)

/-- While the consumer runs, it recovers every message of a list. -/
theorem wp_handleMessages_recovers (consumer : Consumer) (messages : List Message)
    {done : List GroupMessage} (recovered : AllRecovered done world) :
    (handleMessages consumer messages).wp
      ((restartHandler name count).demonic fun choice => choice.running = true)
      (fun outcome world => outcome = .ok () → AllRecovered done world ∧
        ∀ received ∈ messages, (consumer.message received.id).Recovered world) world := by
  induction messages generalizing world done with
  | nil => exact fun _ => ⟨recovered, by simp⟩
  | cons received rest induction =>
      rw [handleMessages, Program.bind_eq_bind, Program.wp_bind, await, Program.wp_perform]
      intro choice running
      change Program.wp _ (if choice.running then _ else _) _ _
      rw [if_pos running, Program.bind_eq_bind, Program.wp_bind]
      refine Program.wp_mono (Handler.demonic_monotone _ _) (fun outcome world all => ?_)
        (wp_handleMessage_recovers consumer received
          (allRecovered_kept .isRunning choice _ recovered))
      cases outcome with
      | error error =>
          intro finished
          cases finished
      | ok _ =>
          refine Program.wp_mono (Handler.demonic_monotone _ _)
            (fun outcome world later finished => ?_) (induction (all rfl))
          obtain ⟨covered, others⟩ := later finished
          refine ⟨fun message member => covered message (by simp [member]), fun other member => ?_⟩
          rcases List.mem_cons.mp member with rfl | isLater
          · exact covered _ (by simp)
          · exact others other isLater

theorem recovered_of_handleMessages {consumer : Consumer} {messages : List Message}
    {choices : ℕ → RestartChoice} (running : ∀ n, (choices n).running = true)
    (finished : ((handleMessages consumer messages).exec (restartHandler name count) choices
      world).1 = .ok ()) {received : Message} (member : received ∈ messages) :
    (consumer.message received.id).Recovered
      ((handleMessages consumer messages).exec (restartHandler name count) choices world).2 := by
  have nothing : AllRecovered [] world := List.forall_mem_nil _
  have all := Handler.exec_of_wp
    (@wp_handleMessages_recovers name count world consumer messages [] nothing) choices running
  exact (all finished).2 received member

end Claimed

/-! ## Restarts -/

namespace RestartedConsumer

/-- A message of a stream as the consumer's group sees it. -/
def message (restarted : RestartedConsumer) (stream : String) (id : ℕ) : GroupMessage where
  stream := stream
  group := restarted.group
  eventId := idText id

/-- The message was delivered to the consumer and not acknowledged, and is idle for longer than the
threshold. -/
def Waiting (restarted : RestartedConsumer) (world : RestartWorld) (now : ℕ) (stream : String)
    (entry : PendingEntry String) : Prop :=
  stream ∈ restarted.streams ∧ entry.consumer = restarted.name ∧ 60000 < now - entry.deliveredAt ∧
    ∃ held, (world.streams stream).groups restarted.group = some held ∧ entry ∈ held.pending

/-- The first page of the consumer reaches the message; an agent claims no page. -/
def Claims (restarted : RestartedConsumer) (world : RestartWorld) (now : ℕ) (stream : String)
    (entry : PendingEntry String) : Prop :=
  match restarted with
  | .baseStream _ _ => ∃ held, (world.streams stream).groups restarted.group = some held ∧
      (world.streams stream).Claims held 60000 100 now entry
  | .multiStream _ => False

/-- A consumer that is starting, and nothing has happened since. -/
structure Fresh (world : RestartWorld) : Prop where
  handed : world.handed = []
  dlqWrites : world.dlqWrites = []

theorem Fresh.unrecovered {world : RestartWorld} (fresh : Fresh world) (message : GroupMessage) :
    ¬message.Recovered world := by
  rintro (handed | ⟨record, written, -⟩)
  · simp [fresh.handed] at handed
  · simp [fresh.dlqWrites] at written

/-- A waiting message that is left alone stays stranded. -/
theorem Waiting.stranded {restarted : RestartedConsumer} {world : RestartWorld} {now : ℕ}
    {stream : String} {entry : PendingEntry String} (fresh : Fresh world)
    (waiting : restarted.Waiting world now stream entry) :
    ∃ position, entry.id ≤ position ∧
      Stranded (restarted.message stream entry.id) position world := by
  obtain ⟨-, -, -, held, isGroup, member⟩ := waiting
  exact ⟨held.lastDelivered, held.bounded entry member,
    fresh.unrecovered _, Streams.Stream.beyond_of_group isGroup⟩

theorem exec_reclaimFirst (consumer : Consumer) (name : String) (count : ℕ)
    (choices : ℕ → RestartChoice) (world : RestartWorld) :
    (reclaimFirst consumer).exec (restartHandler name count) choices world =
      (handleMessages consumer
          (EventStream.reclaimStale (world.streams consumer.stream) consumer.group name
            (choices 0).now).1).exec (restartHandler name count) (fun n => choices (n + 1))
        (restartHandler name count (.reclaimStale consumer.stream consumer.group) (choices 0)
          world).2 := rfl

/-- The first page holds a pending message exactly when it reaches the message. -/
theorem mem_reclaimStale_iff {stream : EventStream} {group : String} {held : Streams.Group String}
    (isGroup : stream.groups group = some held) (name : String) (now : ℕ)
    {entry : PendingEntry String} (member : entry ∈ held.pending) :
    (∃ received ∈ (EventStream.reclaimStale stream group name now).1,
        received.id = idText entry.id) ↔
      stream.Claims held 60000 100 now entry := by
  have answered := Streams.Stream.autoclaim_of_group isGroup name 60000 100 now
  rw [← Streams.Stream.mem_autoclaim_iff isGroup name answered member, EventStream.reclaimStale,
    answered]
  simp [messageOf, idText_injective.eq_iff]

/-- The start of a consumer recovers a waiting message exactly when its first page reaches it, and
leaves it stranded otherwise. -/
theorem startUp_recovers (consumer : Consumer) (name : String) {world : RestartWorld}
    {choices : ℕ → RestartChoice} (running : ∀ n, (choices n).running = true)
    (started : ((reclaimFirst consumer).exec (restartHandler name 10) choices world).1 = .ok ())
    {held : Streams.Group String}
    (isGroup : (world.streams consumer.stream).groups consumer.group = some held)
    {entry : PendingEntry String} (member : entry ∈ held.pending) {position : ℕ}
    (stranded : Stranded (consumer.message (idText entry.id)) position world) :
    ((world.streams consumer.stream).Claims held 60000 100 (choices 0).now entry →
      (consumer.message (idText entry.id)).Recovered
        ((reclaimFirst consumer).exec (restartHandler name 10) choices world).2) ∧
    (¬(world.streams consumer.stream).Claims held 60000 100 (choices 0).now entry →
      Stranded (consumer.message (idText entry.id)) position
        ((reclaimFirst consumer).exec (restartHandler name 10) choices world).2) := by
  have page := mem_reclaimStale_iff isGroup name (choices 0).now member
  rw [exec_reclaimFirst] at started ⊢
  constructor
  · intro claims
    obtain ⟨received, inPage, sameId⟩ := page.mpr claims
    exact sameId ▸ recovered_of_handleMessages (fun n => running (n + 1)) started inPage
  · intro unreached
    have claimed := @Stranded.kept name 10 _ _ (.reclaimStale consumer.stream consumer.group) id
      (choices 0) _ stranded
    refine Handler.exec_of_wp (claimed.wp (calls_handleMessages ?_) fun _ _ stranded => stranded)
      (fun n => choices (n + 1)) fun _ => trivial
    rintro received inPage ⟨-, sameId⟩
    exact unreached (page.mp ⟨received, inPage, sameId⟩)

/-- After its restart, a consumer recovers a waiting message exactly when its first page reaches
it. -/
theorem recovered_iff (restarted : RestartedConsumer) {world : RestartWorld} (fresh : Fresh world)
    {choices : ℕ → RestartChoice} (running : ∀ n, (choices n).running = true)
    (started : (restarted.startUp.exec (restartHandler restarted.name restarted.count) choices
      (restarted.subscribed world)).1 = .ok ())
    (rounds : ℕ) {stream : String} {entry : PendingEntry String}
    (waiting : restarted.Waiting world (choices 0).now stream entry) :
    (restarted.message stream entry.id).Recovered
        ((restarted.run rounds).exec (restartHandler restarted.name restarted.count) choices
          (restarted.subscribed world)).2 ↔
      restarted.Claims world (choices 0).now stream entry := by
  obtain ⟨position, within, stranded⟩ := waiting.stranded fresh
  obtain ⟨reads, -, -, held, isGroup, member⟩ := waiting
  cases restarted with
  | multiStream agent =>
      have subscribed : Stranded (message (.multiStream agent) stream entry.id) position
          (RestartedConsumer.subscribed (.multiStream agent) world) := by
        refine ⟨stranded.unrecovered, ?_⟩
        change (if _ then _ else _ : EventStream).Beyond _ _
        split
        · exact stranded.passed.createGroup agent.group
        · exact stranded.passed
      have loop := @Stranded.wp_run agent.consumer 20 _ _ _ subscribed agent rfl _ rfl within rounds
      have final := Handler.exec_of_wp loop choices fun _ => trivial
      exact iff_of_false final.unrecovered id
  | baseStream consumer name =>
      obtain rfl : stream = consumer.stream := List.mem_singleton.mp reads
      have returned : ((reclaimFirst consumer).exec (restartHandler name 10) choices world).1 =
          .ok () := started
      have afterStart := startUp_recovers consumer name running returned isGroup member stranded
      have claims : Claims (.baseStream consumer name) world (choices 0).now consumer.stream
          entry ↔ (world.streams consumer.stream).Claims held 60000 100 (choices 0).now entry := by
        refine ⟨?_, fun claims => ⟨held, isGroup, claims⟩⟩
        rintro ⟨other, isOther, claims⟩
        rwa [Option.some.inj (isGroup.symm.trans isOther)]
      obtain ⟨after, startRun⟩ : ∃ after, (reclaimFirst consumer).exec (restartHandler name 10)
          choices world = (.ok (), after) := ⟨_, Prod.ext returned rfl⟩
      rw [startRun] at afterStart
      change (consumer.message (idText entry.id)).Recovered
        ((runConsumer consumer rounds).exec (restartHandler name 10) choices world).2 ↔ _
      rw [claims, runConsumer_eq, Program.exec_bind_of_ok startRun]
      constructor
      · intro recovered
        by_contra unreached
        have loop := @Stranded.wp_poll name 10 _ _ _ (afterStart.2 unreached) consumer
          (fun _ => rfl) _ rfl within rounds
        exact (Handler.exec_of_wp loop _ fun _ => trivial).unrecovered recovered
      · intro reached
        have kept := @Handler.wp_of_kept _ _ _ _ _ (restartHandler name 10) (fun _ => True) _
          recovered_kept (poll consumer rounds) _ (afterStart.1 reached)
        exact Handler.exec_of_wp kept _ fun _ => trivial

/-- Nothing is stranded exactly when the first page reaches every waiting message. -/
theorem nothing_stranded_iff (restarted : RestartedConsumer) {world : RestartWorld}
    (fresh : Fresh world) {choices : ℕ → RestartChoice}
    (running : ∀ n, (choices n).running = true)
    (started : (restarted.startUp.exec (restartHandler restarted.name restarted.count) choices
      (restarted.subscribed world)).1 = .ok ())
    (rounds : ℕ) :
    (∀ stream entry, restarted.Waiting world (choices 0).now stream entry →
        (restarted.message stream entry.id).Recovered
          ((restarted.run rounds).exec (restartHandler restarted.name restarted.count) choices
            (restarted.subscribed world)).2) ↔
      ∀ stream entry, restarted.Waiting world (choices 0).now stream entry →
        restarted.Claims world (choices 0).now stream entry :=
  forall_congr' fun _ => forall_congr' fun _ => forall_congr' fun waiting =>
    restarted.recovered_iff fresh running started rounds waiting

/-! ## Backlogs -/

/-- A stream whose messages were all read by one consumer, at time zero. -/
def backlog (group name : String) (messages : ℕ) : EventStream :=
  let appended := (List.range messages).foldl (fun stream _ => stream.append 0 [])
    (Streams.Stream.empty.createGroup group : EventStream)
  (EventStream.consume appended group name messages 0).2

/-- The engine with unacknowledged decisions. -/
def engineBacklog (messages : ℕ) : RestartWorld where
  streams := fun _ => backlog "workers" "execution-engine" messages

def engine : RestartedConsumer :=
  .baseStream ⟨"decisions", "workers"⟩ "execution-engine"

/-- An agent with unacknowledged executions. -/
def graderBacklog (messages : ℕ) : RestartWorld where
  streams := fun _ => backlog "workers:grade-agent" "grade-agent" messages

def grader : RestartedConsumer := .multiStream ⟨["executions"], "grade-agent"⟩

/-- Two minutes later, with nothing going wrong. -/
def calmChoices : ℕ → RestartChoice := fun _ => { now := 120000 }

theorem waiting_of_backlog {restarted : RestartedConsumer} {world : RestartWorld} {now : ℕ}
    {stream : String} {entry : PendingEntry String} (reads : stream ∈ restarted.streams)
    (own : entry.consumer = restarted.name) (idle : 60000 < now - entry.deliveredAt)
    (isPending : ((world.streams stream).groups restarted.group).any
      fun held => decide (entry ∈ held.pending)) :
    restarted.Waiting world now stream entry := by
  obtain ⟨held, isGroup, member⟩ := (Option.any_eq_true _ _).mp isPending
  exact ⟨reads, own, idle, held, isGroup, of_decide_eq_true member⟩

/-- The hundred and first decision is stranded, and so is the one execution of the agent. -/
theorem backlogs_stranded :
    (engine.Waiting (engineBacklog 101) 120000 "decisions" ⟨101, "execution-engine", 0⟩ ∧
      (engine.startUp.exec (restartHandler engine.name engine.count) calmChoices
          (engine.subscribed (engineBacklog 101))).1 = .ok () ∧
      ¬(engine.message "decisions" 101).Recovered ((engine.run 3).exec
        (restartHandler engine.name engine.count) calmChoices
          (engine.subscribed (engineBacklog 101))).2) ∧
    (grader.Waiting (graderBacklog 1) 120000 "executions" ⟨1, "grade-agent", 0⟩ ∧
      ¬(grader.message "executions" 1).Recovered ((grader.run 3).exec
        (restartHandler grader.name grader.count) calmChoices
          (grader.subscribed (graderBacklog 1))).2) := by
  refine ⟨⟨waiting_of_backlog (by decide) rfl (by decide) (by decide +kernel), ?_, ?_⟩,
    waiting_of_backlog (by decide) rfl (by decide) (by decide +kernel), ?_⟩
  · decide +kernel
  · decide +kernel
  · decide +kernel

/-- Two unacknowledged decisions are both recovered. -/
theorem short_backlog_recovered :
    engine.Waiting (engineBacklog 2) 120000 "decisions" ⟨2, "execution-engine", 0⟩ ∧
    ∀ stream entry, engine.Waiting (engineBacklog 2) 120000 stream entry →
      (engine.message stream entry.id).Recovered ((engine.run 3).exec
        (restartHandler engine.name engine.count) calmChoices
          (engine.subscribed (engineBacklog 2))).2 := by
  refine ⟨waiting_of_backlog (by decide) rfl (by decide) (by decide +kernel), ?_⟩
  refine (@nothing_stranded_iff engine (engineBacklog 2) ⟨rfl, rfl⟩ calmChoices (fun _ => rfl)
    (by decide +kernel) 3).mpr ?_
  rintro stream entry ⟨reads, -, idle, held, isGroup, member⟩
  have short : ((backlog "workers" "execution-engine" 2).groups "workers").all fun held =>
      decide (held.pending.length ≤ 100 ∧ ∀ entry ∈ held.pending,
        ((backlog "workers" "execution-engine" 2).find entry.id).isSome) := by decide +kernel
  obtain ⟨few, present⟩ := of_decide_eq_true ((Option.all_eq_true _ _).mp short held isGroup)
  exact ⟨held, isGroup,
    Streams.Stream.claims_of_length_le few member (present entry member) idle.le⟩

end RestartedConsumer

end TradingControl.Events
