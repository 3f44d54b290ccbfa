import TradingControl.Events.BusStep
import TradingControl.Events.FanOut
import TradingControl.Events.PipelineHandled

/-!
# Isolation of consumer groups

A group is never delivered an entry that it has acknowledged, whatever other groups fail at.  What
it has processed may come again in another entry: the pipeline appends a failed message again while
retries are left, and a replay appends a dead letter.  Nothing else does.
-/

namespace TradingControl.Events

open Effects Python Streams

/-! ## Causes of appends -/

namespace FanOut

variable (fanOut : FanOut)

/-- The pipeline was delivered a message, and the entry is the message with one more retry, which
is below the limit. -/
def Retried (before : List BusEvent) (stream : String) (entry : FieldEntry) : Prop :=
  ∃ message retryCount now, EventBus.Received fanOut.codec before stream pipelineGroup message ∧
    fanOut.pipeline.retryCount message.data = .ok retryCount ∧
    retryCount + 1 < fanOut.pipeline.maxRetries ∧
    entry.data = eventFields fanOut.pipeline.formatter
      (EventPipeline.retried message.data retryCount) now

/-- The entry is the payload of a record that was written to the dead-letter queue. -/
def Replayed (deadLetters : List StoredLetter) (stream : String) (entry : FieldEntry) : Prop :=
  ∃ letter ∈ deadLetters, ∃ name payload now,
    replayable (some letter.record) = some (name, .dict payload) ∧
    streamName fanOut.pipeline.formatter name = some stream ∧
    entry.data = eventFields fanOut.pipeline.formatter payload now

/-- A delivered entry was appended and is not acknowledged yet; the pipeline appends retries. -/
def Explained (before : List BusEvent) : BusEvent → Prop
  | .delivered stream group entry =>
      .acknowledged stream group entry.id ∉ before ∧
        ∃ author, .appended author stream entry ∈ before
  | .appended .pipeline stream entry => fanOut.Retried before stream entry
  | _ => True

end FanOut

/-! ## Streams -/

/-- Acknowledged entries are settled, and the entries of the streams were appended. -/
structure Isolated (streams : String → FieldStream) (history : List BusEvent) : Prop where
  settled : ∀ stream group id, .acknowledged stream group id ∈ history →
    (streams stream).Settled group id
  recorded : ∀ stream, ∀ entry ∈ (streams stream).entries,
    ∃ author, .appended author stream entry ∈ history

section Streams

variable {streams : String → FieldStream} {history : List BusEvent} {stream : String}
  {later : FieldStream} {events : List BusEvent}

theorem isolated_empty : Isolated (fun _ => Streams.Stream.empty) [] where
  settled := by simp
  recorded := by simp [Streams.Stream.empty]

theorem Isolated.advance (isolated : Isolated streams history)
    (settled : ∀ group id, (streams stream).Settled group id → later.Settled group id)
    (new : ∀ other group id, .acknowledged other group id ∈ events →
      other = stream ∧ later.Settled group id)
    (entries : ∀ entry ∈ later.entries, entry ∈ (streams stream).entries ∨
      ∃ author, .appended author stream entry ∈ events) :
    Isolated (Function.update streams stream later) (history ++ events) where
  settled := by
    intro other group id acknowledged
    by_cases same : other = stream
    · subst same
      rw [Function.update_self]
      rcases List.mem_append.mp acknowledged with earlier | last
      · exact settled group id (isolated.settled other group id earlier)
      · exact (new other group id last).2
    · rw [Function.update_of_ne same]
      rcases List.mem_append.mp acknowledged with earlier | last
      · exact isolated.settled other group id earlier
      · exact absurd (new other group id last).1 same
  recorded := by
    intro other entry member
    by_cases same : other = stream
    · subst same
      rw [Function.update_self] at member
      rcases entries entry member with old | ⟨author, appended⟩
      · obtain ⟨author, appended⟩ := isolated.recorded other entry old
        exact ⟨author, List.mem_append_left _ appended⟩
      · exact ⟨author, List.mem_append_right _ appended⟩
    · rw [Function.update_of_ne same] at member
      obtain ⟨author, appended⟩ := isolated.recorded other entry member
      exact ⟨author, List.mem_append_left _ appended⟩

/-- A change that acknowledges and appends nothing. -/
theorem Isolated.quiet (isolated : Isolated streams history)
    (settled : ∀ group id, (streams stream).Settled group id → later.Settled group id)
    (entries : ∀ entry ∈ later.entries, entry ∈ (streams stream).entries)
    (none : ∀ other group id, .acknowledged other group id ∉ events) :
    Isolated (Function.update streams stream later) (history ++ events) :=
  isolated.advance settled (fun other group id acknowledged =>
    absurd acknowledged (none other group id)) fun entry member => .inl (entries entry member)

theorem Isolated.append (isolated : Isolated streams history) (author : Author) (stream : String)
    (gap : ℕ) (fields : List (String × String)) :
    Isolated (Function.update streams stream ((streams stream).append gap fields))
      (history ++ [.appended author stream
        ⟨((streams stream).append gap fields).lastGenerated, fields⟩]) := by
  refine isolated.advance (fun group id settled => settled.of_groups rfl ?_) (by simp) ?_
  · change (streams stream).lastGenerated ≤ (streams stream).lastGenerated + 1 + gap
    omega
  · intro entry member
    rcases List.mem_append.mp member with old | new
    · exact .inl old
    · rw [List.mem_singleton.mp new]
      exact .inr ⟨author, List.mem_singleton_self _⟩

end Streams

/-! ## Steps -/

section Steps

variable {fanOut : FanOut} {world after : BusWorld}

/-- What holds of the bus in every state. -/
structure Orderly (fanOut : FanOut) (world : BusWorld) : Prop where
  isolated : Isolated world.streams world.history
  explained : Justified fanOut.Explained world.history

theorem Orderly.append (orderly : Orderly fanOut world) (author : Author) (stream : String)
    (gap : ℕ) (fields : List (String × String))
    (explained : ∀ entry, entry.data = fields →
      fanOut.Explained world.history (.appended author stream entry)) :
    Orderly fanOut (world.append author stream gap fields).2 :=
  ⟨orderly.isolated.append author stream gap fields, orderly.explained.concat (explained _ rfl)⟩

theorem Orderly.deliver (orderly : Orderly fanOut world) {stream group : String}
    {entries : List FieldEntry} {later : FieldStream}
    (kept : ∀ other id, (world.streams stream).Settled other id →
      later.Settled other id ∧ (group = other → ∀ entry ∈ entries, entry.id ≠ id))
    (held : ∀ entry ∈ entries, entry ∈ (world.streams stream).entries)
    (unchanged : later.entries = (world.streams stream).entries) :
    Orderly fanOut (world.commit stream later (entries.map (.delivered stream group))) where
  isolated := orderly.isolated.quiet (fun other id settled => (kept other id settled).1)
    (fun entry member => unchanged ▸ member) (by simp)
  explained := by
    refine orderly.explained.append fun event member between subset => ?_
    obtain ⟨entry, isEntry, rfl⟩ := List.mem_map.mp member
    refine ⟨fun acknowledged => ?_, ?_⟩
    · rcases List.mem_append.mp acknowledged with earlier | new
      · have settled := orderly.isolated.settled stream group entry.id earlier
        exact (kept group entry.id settled).2 rfl entry isEntry rfl
      · obtain ⟨other, -, same⟩ := List.mem_map.mp (subset new)
        cases same
    · obtain ⟨author, appended⟩ := orderly.isolated.recorded stream entry (held entry isEntry)
      exact ⟨author, List.mem_append_left _ appended⟩

/-- Groups are made at the end only. -/
def OnlyLatest (start : GroupStart) : Prop := start = .latest

theorem onlyLatest : OnlyLatest .latest := rfl

/-- A step of anybody but the pipeline and a replay. -/
theorem Orderly.step (orderly : Orderly fanOut world)
    (step : BusWorld.Step .producer True OnlyLatest world after) :
    Orderly fanOut after ∧ world.history <+: after.history ∧
      ∀ stream entry, .appended .replay stream entry ∈ after.history →
        .appended .replay stream entry ∈ world.history := by
  cases step with
  | appended stream gap fields =>
      refine ⟨orderly.append .producer stream gap fields fun _ _ => trivial,
        List.prefix_append _ _, fun other entry member => ?_⟩
      simpa [BusWorld.append, BusWorld.commit] using member
  | trimmed stream count =>
      refine ⟨⟨orderly.isolated.quiet (fun group id settled => settled.of_groups rfl le_rfl)
        (fun entry member => List.mem_of_mem_drop member) (by simp [-List.map_take]), ?_⟩,
        List.prefix_append _ _, fun other entry member => ?_⟩
      · refine orderly.explained.append fun event member _ _ => ?_
        obtain ⟨entry, -, rfl⟩ := List.mem_map.mp member
        trivial
      · simpa [BusWorld.trim, BusWorld.commit, -List.map_take] using member
  | read stream group consumer count now entries later answered =>
      refine ⟨orderly.deliver (fun other id settled => ?_) (fun entry member => ?_) ?_,
        List.prefix_append _ _, fun other entry member => ?_⟩
      · exact settled.read answered
      · obtain ⟨held, -, rfl, -⟩ := Streams.Stream.read_eq_some answered
        exact (Streams.Stream.mem_after.mp (List.mem_of_mem_take member)).1
      · obtain ⟨held, -, -, rfl⟩ := Streams.Stream.read_eq_some answered
        rfl
      · simpa [BusWorld.commit] using member
  | claimed stream group consumer minIdle count now entries later answered =>
      refine ⟨orderly.deliver (fun other id settled => ?_) (fun entry member => ?_) ?_,
        List.prefix_append _ _, fun other entry member => ?_⟩
      · exact settled.autoclaim answered
      · obtain ⟨held, -, rfl, -⟩ := Streams.Stream.autoclaim_eq_some answered
        obtain ⟨pending, -, found⟩ := List.mem_filterMap.mp member
        exact (Streams.Stream.mem_of_find found).1
      · obtain ⟨held, -, -, rfl⟩ := Streams.Stream.autoclaim_eq_some answered
        rfl
      · simpa [BusWorld.commit] using member
  | acknowledged stream group held entry isGroup isPending =>
      refine ⟨⟨orderly.isolated.advance
        (fun other id settled => settled.acknowledge group entry.id) ?_ ?_,
        orderly.explained.concat trivial⟩, List.prefix_append _ _, fun other held member => ?_⟩
      · intro other name id member
        obtain ⟨rfl, rfl, rfl⟩ := BusEvent.acknowledged.inj (List.mem_singleton.mp member)
        exact ⟨rfl, Streams.Stream.settled_acknowledge isGroup isPending⟩
      · intro held member
        refine .inl ?_
        rw [Streams.Stream.acknowledge] at member
        split at member <;> exact member
      · simpa [BusWorld.commit] using member
  | created stream group start latest absent =>
      obtain rfl : start = .latest := latest
      refine ⟨⟨orderly.isolated.quiet (fun other id settled => settled.createGroup group)
        (fun _ member => member) (by simp), orderly.explained.concat trivial⟩,
        List.prefix_append _ _, fun other entry member => ?_⟩
      simpa [BusWorld.commit] using member
  | inspected stream =>
      have unchanged := @Isolated.quiet _ _ stream (world.streams stream)
        ((world.groupInfo stream).map (.inspected stream)) orderly.isolated
        (fun _ _ settled => settled) (fun _ member => member) (by simp)
      rw [Function.update_eq_self] at unchanged
      refine ⟨⟨unchanged, orderly.explained.append fun event member _ _ => ?_⟩,
        List.prefix_append _ _, fun other entry member => ?_⟩
      · obtain ⟨info, -, rfl⟩ := List.mem_map.mp member
        trivial
      · simpa using member
  | moved _ stream group =>
      refine ⟨⟨orderly.isolated.quiet (fun other id settled => settled.moveToEnd group) ?_
        (by simp), orderly.explained.concat trivial⟩, List.prefix_append _ _,
        fun other entry member => ?_⟩
      · intro entry member
        rw [Streams.Stream.moveToEnd] at member
        split at member <;> exact member
      · simpa [BusWorld.commit] using member
  | lost stream group =>
      refine ⟨⟨orderly.isolated.quiet (fun other id settled => settled.removeGroup group)
        (fun _ member => member) (by simp), orderly.explained.concat trivial⟩,
        List.prefix_append _ _, fun other entry member => ?_⟩
      simpa [BusWorld.loseGroup, BusWorld.commit] using member

theorem Orderly.steps (orderly : Orderly fanOut world)
    (steps : BusWorld.Steps .producer True OnlyLatest world after) :
    Orderly fanOut after ∧ world.history <+: after.history ∧
      ∀ stream entry, .appended .replay stream entry ∈ after.history →
        .appended .replay stream entry ∈ world.history := by
  induction steps with
  | refl => exact ⟨orderly, List.prefix_refl _, fun _ _ member => member⟩
  | tail _ step induction =>
      obtain ⟨middle, grown, replays⟩ := induction
      obtain ⟨last, grown', replays'⟩ := middle.step step
      exact ⟨last, grown.trans grown', fun stream entry member =>
        replays stream entry (replays' stream entry member)⟩

end Steps

/-! ## Guarantee -/

/-- What holds in every state of the system. -/
structure Tidy (fanOut : FanOut) (world : FanOutWorld) : Prop where
  orderly : Orderly fanOut world.bus
  written : ∀ stream eventId record, world.dlq stream eventId = some (some record) →
    ⟨stream, eventId, record⟩ ∈ world.deadLetters
  replayed : ∀ stream entry, .appended .replay stream entry ∈ world.bus.history →
    fanOut.Replayed world.deadLetters stream entry

/-- Histories and the list of dead letters only grow. -/
def Later (earlier later : FanOutWorld) : Prop :=
  earlier.bus.history <+: later.bus.history ∧ earlier.deadLetters ⊆ later.deadLetters

theorem Later.refl (world : FanOutWorld) : Later world world :=
  ⟨List.prefix_refl _, List.Subset.refl _⟩

def fanOutGuarantee (fanOut : FanOut) : Guarantee FanOutWorld where
  invariant := Tidy fanOut
  grows := Later
  refl := Later.refl
  trans first second := ⟨first.1.trans second.1, List.Subset.trans first.2 second.2⟩

section Guarantee

variable {fanOut : FanOut} {world : FanOutWorld}

theorem Tidy.onBus (tidy : Tidy fanOut world) {after : BusWorld}
    (steps : BusWorld.Steps .producer True OnlyLatest world.bus after) :
    Tidy fanOut { world with bus := after } ∧ Later world { world with bus := after } := by
  obtain ⟨orderly, grown, replays⟩ := tidy.orderly.steps steps
  exact ⟨⟨orderly, tidy.written, fun stream entry appended =>
    tidy.replayed stream entry (replays stream entry appended)⟩, grown, List.Subset.refl _⟩

/-- A bus program that makes groups at the end only. -/
theorem Tidy.exec {α : Type} (tidy : Tidy fanOut world) {program : Bus α}
    (calls : program.Calls (BusOp.Allowed True OnlyLatest)) (choices : ℕ → BusChoice) :
    Tidy fanOut (world.onBus (program.exec (busHandler .producer) choices world.bus)).2 ∧
      Later world (world.onBus (program.exec (busHandler .producer) choices world.bus)).2 :=
  tidy.onBus (BusWorld.steps_exec calls choices)

theorem Tidy.command (tidy : Tidy fanOut world) {op : BusOp}
    (allowed : op.Allowed True OnlyLatest) (choice : BusChoice) :
    Tidy fanOut (world.onBus (busHandler .producer op choice world.bus)).2 ∧
      Later world (world.onBus (busHandler .producer op choice world.bus)).2 :=
  tidy.onBus (BusWorld.steps_busHandler allowed choice)

theorem Tidy.push (tidy : Tidy fanOut world) (stream eventId : String) (record : Value) :
    Tidy fanOut (world.push stream eventId record) where
  orderly := tidy.orderly
  written := by
    intro other held found isFound
    by_cases same : other = stream ∧ held = eventId
    · obtain ⟨rfl, rfl⟩ := same
      simp only [FanOutWorld.push, Function.update_self, Option.some.injEq] at isFound
      exact isFound ▸ List.mem_append_right _ (List.mem_singleton_self _)
    · refine List.mem_append_left _ (tidy.written other held found ?_)
      by_cases queue : other = stream
      · subst queue
        have different : held ≠ eventId := fun id => same ⟨rfl, id⟩
        simpa [FanOutWorld.push, different] using isFound
      · simpa [FanOutWorld.push, queue] using isFound
  replayed := by
    intro other entry appended
    obtain ⟨letter, isLetter, found⟩ := tidy.replayed other entry appended
    exact ⟨letter, List.mem_append_left _ isLetter, found⟩

theorem Tidy.remove (tidy : Tidy fanOut world) (stream eventId : String) :
    Tidy fanOut (world.remove stream eventId) where
  orderly := tidy.orderly
  written := by
    intro other held found isFound
    refine tidy.written other held found ?_
    by_cases queue : other = stream
    · subst queue
      by_cases same : held = eventId
      · simp [FanOutWorld.remove, same] at isFound
      · simpa [FanOutWorld.remove, same] using isFound
    · simpa [FanOutWorld.remove, queue] using isFound
  replayed := tidy.replayed

theorem later_push (stream eventId : String) (record : Value) :
    Later world (world.push stream eventId record) :=
  ⟨List.prefix_refl _, List.subset_append_left _ _⟩

theorem kept_keyReply {ε α : Type} {choice : FanOutChoice} {failure : ε} {answer : α}
    {after : FanOutWorld} (tidy : Tidy fanOut world)
    (done : Tidy fanOut after ∧ Later world after) :
    Tidy fanOut (keyReply choice failure answer world after).2 ∧
      Later world (keyReply choice failure answer world after).2 := by
  rw [keyReply]
  cases choice.reply with
  | lost => exact ⟨tidy, Later.refl world⟩
  | _ => exact done

/-! ## Operations -/

/-- Consumers keep the guarantee whatever they fail at: they append nothing. -/
theorem keeps_consumerOps (name : String) (count : ℕ) (op : ConsumerOp) :
    (fanOutGuarantee fanOut).Keeps (fanOut.consumerOps name count) op := by
  intro choice world tidy
  have unchanged : Tidy fanOut world ∧ Later world world := ⟨tidy, Later.refl world⟩
  cases op with
  | consume stream group =>
      exact tidy.exec (EventBus.calls_consume fanOut.codec onlyLatest stream group name count)
        choice.commands
  | reclaimStale stream group =>
      exact tidy.exec (EventBus.calls_reclaimStale fanOut.codec onlyLatest stream group name 60000)
        choice.commands
  | process message data =>
      simp only [FanOut.consumerOps]
      cases choice.outcome <;> exact unchanged
  | incr eventId =>
      exact kept_keyReply tidy ⟨⟨tidy.orderly, tidy.written, tidy.replayed⟩, Later.refl world⟩
  | expire eventId => exact kept_keyReply tidy unchanged
  | getRetries eventId => exact kept_keyReply tidy unchanged
  | hset record => exact kept_keyReply tidy ⟨tidy.push _ _ _, later_push _ _ _⟩
  | xack message =>
      exact @Tidy.command _ _ tidy (.xack message.stream message.group [message.eventId]) trivial
        (choice.commands 0)
  | _ => exact unchanged

/-- The operation appends nothing. -/
def PipelineOp.NoAppend (op : PipelineOp) : Prop := ∀ stream fields, op ≠ .xadd stream fields

theorem keeps_pipelineOps {op : PipelineOp} (noAppend : op.NoAppend) :
    (fanOutGuarantee fanOut).Keeps fanOut.pipelineOps op := by
  intro choice world tidy
  have unchanged : Tidy fanOut world ∧ Later world world := ⟨tidy, Later.refl world⟩
  cases op with
  | consume stream =>
      exact tidy.exec
        (EventBus.calls_consume fanOut.codec onlyLatest stream pipelineGroup "pipeline" 50)
        choice.commands
  | persistEvent stream msgId event =>
      simp only [FanOut.pipelineOps]
      cases choice.raises <;> exact unchanged
  | updateAgent name status health lastTask =>
      simp only [FanOut.pipelineOps]
      cases choice.raises <;> exact unchanged
  | broadcast data =>
      simp only [FanOut.pipelineOps]
      cases choice.raises <;> exact unchanged
  | xack stream redisId =>
      exact @Tidy.command _ _ tidy (.xack stream pipelineGroup [redisId]) trivial
        (choice.commands 0)
  | remember msgId => exact ⟨⟨tidy.orderly, tidy.written, tidy.replayed⟩, Later.refl world⟩
  | xadd stream fields => exact absurd rfl (noAppend stream fields)
  | hset letter => exact kept_keyReply tidy ⟨tidy.push _ _ _, later_push _ _ _⟩
  | _ => exact unchanged

/-- The operation appends nothing. -/
def ReplayOp.NoAppend (op : ReplayOp) : Prop := ∀ stream fields, op ≠ .xadd stream fields

theorem keeps_replayOps {op : ReplayOp} (noAppend : op.NoAppend) :
    (fanOutGuarantee fanOut).Keeps FanOut.replayOps op := by
  intro choice world tidy
  have unchanged : Tidy fanOut world ∧ Later world world := ⟨tidy, Later.refl world⟩
  cases op with
  | hget stream eventId => exact kept_keyReply tidy unchanged
  | xadd stream fields => exact absurd rfl (noAppend stream fields)
  | hdel stream eventId =>
      exact kept_keyReply tidy ⟨tidy.remove _ _, List.prefix_refl _, List.Subset.refl _⟩
  | deleteRetries eventId =>
      exact kept_keyReply tidy ⟨⟨tidy.orderly, tidy.written, tidy.replayed⟩, Later.refl world⟩
  | utcNow => exact unchanged

theorem keeps_processHandler {op : BusOp} (allowed : op.Allowed True OnlyLatest) :
    (fanOutGuarantee fanOut).Keeps (FanOut.processHandler .producer) op :=
  fun choice _ tidy => tidy.command allowed (choice.commands 0)

theorem keeps_upkeepHandler (op : OutsideOp) :
    (fanOutGuarantee fanOut).Keeps FanOut.upkeepHandler op := by
  intro choice world tidy
  cases op with
  | trim stream count => exact tidy.onBus (.single (.trimmed stream count))
  | loseGroup stream group => exact tidy.onBus (.single (.lost stream group))

theorem Tidy.xadd (tidy : Tidy fanOut world) (author : Author) (stream : String)
    (fields : List (String × String)) (choice : BusChoice)
    (explained : ∀ entry, entry.data = fields →
      fanOut.Explained world.bus.history (.appended author stream entry))
    (replayed : author = .replay → ∀ entry, entry.data = fields →
      fanOut.Replayed world.deadLetters stream entry) :
    Tidy fanOut (world.onBus (busHandler author (.xadd stream fields none) choice world.bus)).2 ∧
      Later world
        (world.onBus (busHandler author (.xadd stream fields none) choice world.bus)).2 := by
  have worlds := @BusWorld.busHandler_world author world.bus (.xadd stream fields none) choice
  rw [FanOutWorld.onBus]
  rcases worlds with same | done
  · rw [same]
    exact ⟨tidy, Later.refl world⟩
  · rw [done]
    refine ⟨⟨tidy.orderly.append author stream choice.gap fields explained, tidy.written, ?_⟩,
      List.prefix_append _ _, List.Subset.refl _⟩
    intro other entry member
    rcases List.mem_append.mp member with earlier | new
    · exact tidy.replayed other entry earlier
    · obtain ⟨isReplay, rfl, rfl⟩ := BusEvent.appended.inj (List.mem_singleton.mp new)
      exact replayed isReplay.symm _ rfl

end Guarantee

/-! ## Pipeline -/

section Pipeline

variable {fanOut : FanOut} {known : FanOutWorld} {stream : String} {message : Message}

theorem received_mono {earlier later : FanOutWorld} (grown : Later earlier later)
    (received : EventBus.Received fanOut.codec earlier.bus.history stream pipelineGroup message) :
    EventBus.Received fanOut.codec later.bus.history stream pipelineGroup message := by
  obtain ⟨entry, delivered, reads⟩ := received
  exact ⟨entry, grown.1.subset delivered, reads⟩

theorem calls_pipe_noAppend {op : PipelineOp} (noAppend : op.NoAppend) :
    (pipe op).Calls PipelineOp.NoAppend :=
  Program.calls_perform noAppend

theorem sound_of_noAppend {α : Type} {program : Piping α}
    (calls : program.Calls PipelineOp.NoAppend) (known : FanOutWorld) :
    (fanOutGuarantee fanOut).SoundFrom fanOut.pipelineOps known program :=
  Guarantee.soundFrom_of_keeps (calls.mono fun _ noAppend => keeps_pipelineOps noAppend) known

theorem noAppend_of_quiet {op : PipelineOp} (quiet : op.Quiet) : op.NoAppend := by
  rintro stream fields rfl
  exact quiet

theorem calls_acknowledge_noAppend (stream redisId : String) :
    (EventPipeline.acknowledge stream redisId).Calls PipelineOp.NoAppend :=
  Program.calls_bind (Program.calls_attempt (calls_pipe_noAppend (by simp [PipelineOp.NoAppend])))
    fun _ => trivial

theorem calls_processMessage (stream : String) (message : Message) (eventType msgId ts : String) :
    (fanOut.pipeline.processMessage stream message eventType msgId ts).Calls
      PipelineOp.NoAppend := by
  refine Program.calls_bind (calls_pipe_noAppend (by simp [PipelineOp.NoAppend]))
    fun processed => ?_
  split
  · exact calls_acknowledge_noAppend stream message.id
  · refine Program.calls_bind ((calls_prepare stream message eventType msgId ts).mono
      fun _ quiet => noAppend_of_quiet quiet) fun _ => ?_
    refine Program.calls_bind (calls_pipe_noAppend (by simp [PipelineOp.NoAppend])) fun _ => ?_
    exact Program.calls_bind (calls_acknowledge_noAppend stream message.id) fun _ =>
      calls_pipe_noAppend (by simp [PipelineOp.NoAppend])

theorem sound_publish
    (received : EventBus.Received fanOut.codec known.bus.history stream pipelineGroup message)
    {retryCount : ℤ} (counted : fanOut.pipeline.retryCount message.data = .ok retryCount)
    (below : retryCount + 1 < fanOut.pipeline.maxRetries) :
    (fanOutGuarantee fanOut).SoundFrom fanOut.pipelineOps known
      (fanOut.pipeline.publish stream (EventPipeline.retried message.data retryCount)) := by
  refine Guarantee.SoundFrom.bind (sound_of_noAppend
    (calls_pipe_noAppend (by simp [PipelineOp.NoAppend])) known) fun now later grown => ?_
  have appended : (fanOutGuarantee fanOut).SoundFrom fanOut.pipelineOps later
      (pipe (.xadd stream (eventFields fanOut.pipeline.formatter
        (EventPipeline.retried message.data retryCount) now))) := by
    rw [Guarantee.SoundFrom, pipe, Program.wp_perform]
    intro choice world tidy further
    have cause : ∀ entry, entry.data = eventFields fanOut.pipeline.formatter
        (EventPipeline.retried message.data retryCount) now →
        fanOut.Retried world.bus.history stream entry :=
      fun entry isRetry => ⟨message, retryCount, now,
        received_mono further (received_mono grown received), counted, below, isRetry⟩
    obtain ⟨tidy', later'⟩ := tidy.xadd .pipeline stream _ (choice.commands 0) cause (by simp)
    exact ⟨tidy', later', (fanOutGuarantee fanOut).trans further later'⟩
  refine Guarantee.SoundFrom.bind (Guarantee.SoundFrom.attempt appended) fun outcome last _ => ?_
  cases outcome with
  | ok messageId => exact Guarantee.soundFrom_ret last _
  | error failure => exact Guarantee.soundFrom_ret last _

theorem sound_handleFailure
    (received : EventBus.Received fanOut.codec known.bus.history stream pipelineGroup message)
    {retryCount : ℤ} (counted : fanOut.pipeline.retryCount message.data = .ok retryCount)
    (msgId : String) (failure : PipelineFailure) :
    (fanOutGuarantee fanOut).SoundFrom fanOut.pipelineOps known
      (fanOut.pipeline.handleFailure stream message msgId retryCount failure) := by
  simp only [EventPipeline.handleFailure]
  split
  · next below =>
      refine Guarantee.SoundFrom.bind (sound_publish received counted below) fun _ later _ => ?_
      exact sound_of_noAppend (calls_acknowledge_noAppend stream message.id) later
  · refine sound_of_noAppend ?_ known
    refine Program.calls_bind (calls_pipe_noAppend (by simp [PipelineOp.NoAppend])) fun _ => ?_
    refine Program.calls_bind (calls_acknowledge_noAppend stream message.id) fun _ => ?_
    exact Program.calls_bind (calls_pipe_noAppend (by simp [PipelineOp.NoAppend])) fun _ =>
      calls_pipe_noAppend (by simp [PipelineOp.NoAppend])

theorem sound_processWithRetry
    (received : EventBus.Received fanOut.codec known.bus.history stream pipelineGroup message) :
    (fanOutGuarantee fanOut).SoundFrom fanOut.pipelineOps known
      (fanOut.pipeline.processWithRetry stream message) := by
  have retrying : ∀ ts later, Later known later →
      (fanOutGuarantee fanOut).SoundFrom fanOut.pipelineOps later
        (fanOut.pipeline.processCounted stream message ts) := by
    intro ts later grown
    rw [EventPipeline.processCounted]
    cases counted : fanOut.pipeline.retryCount message.data with
    | error error => exact Guarantee.soundFrom_raise later _
    | ok retryCount =>
        refine Guarantee.SoundFrom.bind (Guarantee.SoundFrom.attempt (sound_of_noAppend
          (calls_processMessage stream message _ _ ts) later)) fun outcome last further => ?_
        cases outcome with
        | ok _ => exact Guarantee.soundFrom_ret last ()
        | error failure =>
            exact sound_handleFailure (received_mono further (received_mono grown received))
              counted _ failure
  rw [EventPipeline.processWithRetry_eq]
  split
  · exact retrying _ known (Later.refl known)
  · exact Guarantee.SoundFrom.bind (sound_of_noAppend
      (calls_pipe_noAppend (by simp [PipelineOp.NoAppend])) known) fun now later grown =>
        retrying now later grown

theorem sound_processAll {messages : List Message}
    (received : ∀ message ∈ messages,
      EventBus.Received fanOut.codec known.bus.history stream pipelineGroup message) :
    (fanOutGuarantee fanOut).SoundFrom fanOut.pipelineOps known
      (fanOut.pipeline.processAll stream messages) := by
  induction messages generalizing known with
  | nil => exact Guarantee.soundFrom_ret known ()
  | cons message rest induction =>
      refine Guarantee.SoundFrom.bind
        (sound_processWithRetry (received message List.mem_cons_self)) fun _ later grown => ?_
      exact induction fun other member =>
        received_mono grown (received other (List.mem_cons_of_mem message member))

/-- What the pipeline reads was delivered to it. -/
theorem wp_consume {post : Except PipelineFailure (List Message) → FanOutWorld → Prop}
    (answered : ∀ messages later, Later known later →
      (∀ message ∈ messages,
        EventBus.Received fanOut.codec later.bus.history stream pipelineGroup message) →
      post (.ok messages) later)
    (failed : ∀ failure later, Later known later → post (.error failure) later) :
    (pipe (.consume stream)).wp ((fanOutGuarantee fanOut).relying fanOut.pipelineOps) post
      known := by
  rw [pipe, Program.wp_perform]
  intro choice world tidy grown
  obtain ⟨tidy', later⟩ := @keeps_pipelineOps fanOut (.consume stream)
    (by simp [PipelineOp.NoAppend]) choice world tidy
  refine ⟨tidy', later, ?_⟩
  have grown' := (fanOutGuarantee fanOut).trans grown later
  simp only [FanOut.pipelineOps, FanOutWorld.onBus] at grown' ⊢
  cases outcome : ((EventBus.consume fanOut.codec stream pipelineGroup "pipeline" 50).exec
      (busHandler .producer) choice.commands world.bus).1 with
  | error failure => exact failed _ _ grown'
  | ok messages =>
      exact answered messages _ grown' fun message member =>
        EventBus.received_of_consume fanOut.codec outcome member

theorem sound_pollStreams (names : List String) :
    (fanOutGuarantee fanOut).SoundFrom fanOut.pipelineOps known
      (fanOut.pipeline.pollStreams names) := by
  induction names generalizing known with
  | nil => exact Guarantee.soundFrom_ret known ()
  | cons stream rest induction =>
      refine Guarantee.SoundFrom.bind (sound_of_noAppend
        (calls_pipe_noAppend (by simp [PipelineOp.NoAppend])) known) fun running later _ => ?_
      split
      · rw [Guarantee.SoundFrom, Program.bind_eq_bind, Program.wp_bind]
        refine wp_consume (fun messages read grown received => ?_) fun _ _ grown => grown
        have others : (fanOutGuarantee fanOut).SoundFrom fanOut.pipelineOps read
            ((fanOut.pipeline.processAll stream messages).bind
              fun _ => fanOut.pipeline.pollStreams rest) :=
          Guarantee.SoundFrom.bind (sound_processAll received) fun _ last _ => induction
        exact others.mono fun _ _ further => (fanOutGuarantee fanOut).trans grown further
      · exact Guarantee.soundFrom_ret later ()

theorem sound_pipeline (rounds : ℕ) :
    (fanOutGuarantee fanOut).SoundFrom fanOut.pipelineOps known (fanOut.pipeline.run rounds) := by
  induction rounds generalizing known with
  | zero => exact Guarantee.soundFrom_ret known ()
  | succ rounds induction =>
      refine Guarantee.SoundFrom.bind (sound_of_noAppend
        (calls_pipe_noAppend (by simp [PipelineOp.NoAppend])) known) fun running later _ => ?_
      split
      · exact Guarantee.SoundFrom.bind (sound_pollStreams streams) fun _ last _ => induction
      · exact Guarantee.soundFrom_ret later ()

end Pipeline

/-! ## Replay -/

section Replay

variable {fanOut : FanOut} {known : FanOutWorld}

theorem calls_issue {op : ReplayOp} (noAppend : op.NoAppend) :
    (issue op).Calls ReplayOp.NoAppend :=
  Program.calls_perform noAppend

theorem sound_of_noAppend_replay {α : Type} {program : Replaying α}
    (calls : program.Calls ReplayOp.NoAppend) (known : FanOutWorld) :
    (fanOutGuarantee fanOut).SoundFrom FanOut.replayOps known program :=
  Guarantee.soundFrom_of_keeps (calls.mono fun _ noAppend => keeps_replayOps noAppend) known

theorem calls_clear (eventId : String) : (clear eventId).Calls ReplayOp.NoAppend := by
  have cleared : ∀ queues, (clearStreams eventId queues).Calls ReplayOp.NoAppend := by
    intro queues
    induction queues with
    | nil => trivial
    | cons stream rest induction =>
        exact Program.calls_bind (calls_issue (by simp [ReplayOp.NoAppend])) fun _ => induction
  exact Program.calls_bind (cleared streams) fun _ =>
    calls_issue (by simp [ReplayOp.NoAppend])

theorem sound_publish_letter {letter : StoredLetter} (written : letter ∈ known.deadLetters)
    {name payload : Value} (found : replayable (some letter.record) = some (name, payload)) :
    (fanOutGuarantee fanOut).SoundFrom FanOut.replayOps known
      (publish fanOut.pipeline.formatter name payload) := by
  rw [publish.eq_def]
  cases payload with
  | dict event =>
      refine Guarantee.SoundFrom.bind (sound_of_noAppend_replay
        (calls_issue (by simp [ReplayOp.NoAppend])) known) fun now later grown => ?_
      have appended : (fanOutGuarantee fanOut).SoundFrom FanOut.replayOps later
          (issue (.xadd (streamName fanOut.pipeline.formatter name)
            (eventFields fanOut.pipeline.formatter event now))) := by
        rw [Guarantee.SoundFrom, issue, Program.wp_perform]
        intro choice world tidy further
        cases stream : streamName fanOut.pipeline.formatter name with
        | none => exact ⟨tidy, Later.refl world, further⟩
        | some stream =>
            have cause : ∀ entry, entry.data = eventFields fanOut.pipeline.formatter event now →
                fanOut.Replayed world.deadLetters _ entry :=
              fun entry isPayload => ⟨letter, further.2 (grown.2 written), name, event, now, found,
                ‹_›, isPayload⟩
            obtain ⟨tidy', later'⟩ := tidy.xadd .replay _ _ (choice.commands 0)
              (fun _ _ => trivial) fun _ => cause
            exact ⟨tidy', later', (fanOutGuarantee fanOut).trans further later'⟩
      refine Guarantee.SoundFrom.bind (Guarantee.SoundFrom.attempt appended)
        fun outcome last _ => ?_
      cases outcome with
      | ok messageId => exact Guarantee.soundFrom_ret last _
      | error failure => exact Guarantee.soundFrom_ret last _
  | _ => exact Guarantee.soundFrom_raise known _

theorem sound_redeliver (eventId : String) {raw : Option Value}
    (written : ∀ record, raw = some record → ∃ letter ∈ known.deadLetters, letter.record = record) :
    (fanOutGuarantee fanOut).SoundFrom FanOut.replayOps known
      (redeliver fanOut.pipeline.formatter eventId raw) := by
  rw [redeliver]
  cases found : replayable raw with
  | none => exact Guarantee.soundFrom_raise known _
  | some parts =>
      cases raw with
      | none => cases found
      | some record =>
          obtain ⟨letter, isLetter, rfl⟩ := written record rfl
          refine Guarantee.SoundFrom.bind (sound_publish_letter isLetter found)
            fun _ later _ => ?_
          exact Guarantee.SoundFrom.bind (sound_of_noAppend_replay (calls_clear eventId) later)
            fun _ last _ => Guarantee.soundFrom_ret last true

theorem sound_replay (eventId : String) (queues : List String) :
    (fanOutGuarantee fanOut).SoundFrom FanOut.replayOps known
      (replayFrom fanOut.pipeline.formatter eventId queues) := by
  induction queues generalizing known with
  | nil => exact Guarantee.soundFrom_ret known false
  | cons stream rest induction =>
      rw [Guarantee.SoundFrom, replayFrom, Program.bind_eq_bind, Program.wp_bind, issue,
        Program.wp_perform]
      intro choice world tidy grown
      obtain ⟨tidy', later⟩ := @keeps_replayOps fanOut (.hget stream eventId)
        (by simp [ReplayOp.NoAppend]) choice world tidy
      refine ⟨tidy', later, ?_⟩
      simp only [FanOut.replayOps, keyReply]
      cases choice.reply with
      | lost => exact grown
      | unacknowledged => exact grown
      | answered =>
          rw [Program.andThen_ok]
          cases found : world.dlq stream eventId with
          | none => exact induction.mono fun _ _ further =>
              (fanOutGuarantee fanOut).trans grown further
          | some raw =>
              have written : ∀ record, raw = some record →
                  ∃ letter ∈ world.deadLetters, letter.record = record := by
                rintro record rfl
                exact ⟨_, tidy.written stream eventId record found, rfl⟩
              exact (sound_redeliver eventId written).mono fun _ _ further =>
                (fanOutGuarantee fanOut).trans grown further

end Replay

/-! ## Runs -/

section Runs

variable {fanOut : FanOut} {ι : Type} [DecidableEq ι]

theorem calls_call (codec : Codec) {call : BusCall} (latest : call.StartsLatest) :
    (call.program codec).Calls (BusOp.Allowed True OnlyLatest) := by
  have discards : ∀ {α : Type} {program : Bus α}, program.Calls (BusOp.Allowed True OnlyLatest) →
      (program.bind fun _ => .ret () : Bus Unit).Calls (BusOp.Allowed True OnlyLatest) :=
    fun calls => Program.calls_bind calls fun _ => trivial
  cases call with
  | publish stream event maxlen => exact discards (EventBus.calls_publish codec stream event maxlen)
  | consume stream group consumer count =>
      exact discards (EventBus.calls_consume codec onlyLatest stream group consumer count)
  | acknowledge stream group ids => exact discards (EventBus.calls_acknowledge stream group ids)
  | reclaimStale stream group consumer minIdle =>
      exact discards (EventBus.calls_reclaimStale codec onlyLatest stream group consumer minIdle)
  | createConsumerGroup stream group start =>
      exact EventBus.calls_createConsumerGroup stream group latest
  | createGroups => exact EventBus.calls_createGroupsOf trivial onlyLatest streams
  | ensureAllStreamsReady => exact EventBus.calls_ensureAllStreamsReady trivial onlyLatest

theorem calls_runCalls (codec : Codec) {calls : List BusCall}
    (latest : ∀ call ∈ calls, call.StartsLatest) :
    (runCalls codec calls).Calls (BusOp.Allowed True OnlyLatest) := by
  induction calls with
  | nil => trivial
  | cons call rest induction =>
      exact Program.calls_bind (Program.calls_attempt
        (calls_call codec (latest call List.mem_cons_self))) fun _ =>
          induction fun other member => latest other (List.mem_cons_of_mem call member)

theorem sound_party (member : Member) (known : FanOutWorld) :
    (fanOutGuarantee fanOut).SoundFrom (fanOut.party member).handler known
      (fanOut.party member).program := by
  cases member with
  | process calls latest =>
      exact Guarantee.soundFrom_of_keeps ((calls_runCalls fanOut.codec latest).mono
        fun _ allowed => keeps_processHandler allowed) known
  | outside ops => exact Guarantee.soundFrom_of_forall keeps_upkeepHandler _ known
  | baseStream consumer name polls =>
      exact Guarantee.soundFrom_of_forall (keeps_consumerOps name 10) _ known
  | multiStream agent rounds =>
      exact Guarantee.soundFrom_of_forall (keeps_consumerOps agent.consumer 20) _ known
  | pipeline rounds => exact sound_pipeline rounds
  | replay eventId => exact sound_replay eventId streams

theorem tidy_run (fanOut : FanOut) (members : ι → Member) (schedule : List (ι × FanOutChoice)) :
    Tidy fanOut ((fanOut.system members).run schedule).world := by
  have start : (fanOutGuarantee fanOut).invariant (fanOut.system members).world :=
    ⟨⟨isolated_empty, justified_nil⟩, by simp [FanOut.system], by simp [FanOut.system]⟩
  exact Guarantee.invariant_run start (fun i => sound_party (members i) _) schedule

/-- A group is delivered content again that it has processed and acknowledged, though it was
published once. -/
structure Rerun (history : List BusEvent) (stream group : String)
    (content : List (String × String) → Prop) (before : List BusEvent)
    (first second : FieldEntry) : Prop where
  again : before ++ [.delivered stream group second] <+: history
  delivered : .delivered stream group first ∈ before
  acknowledged : .acknowledged stream group first.id ∈ before
  firstContent : content first.data
  secondContent : content second.data
  once : ∀ one other, .appended .producer stream one ∈ history →
    .appended .producer stream other ∈ history → content one.data → content other.data → one = other

/-- In every run, content comes again to a group that has acknowledged it in another entry only, and
only where the pipeline was delivered a message and has appended it again with fewer retries than
the limit, or where a dead letter was replayed. -/
theorem FanOut.rerun_cause (fanOut : FanOut) (members : ι → Member)
    (schedule : List (ι × FanOutChoice)) {stream group : String}
    {content : List (String × String) → Prop} {before : List BusEvent} {first second : FieldEntry}
    (rerun : Rerun ((fanOut.system members).run schedule).world.bus.history stream group content
      before first second) :
    second.id ≠ first.id ∧ ∃ entry, content entry.data ∧
      (fanOut.Retried before stream entry ∨
        fanOut.Replayed ((fanOut.system members).run schedule).world.deadLetters stream entry) := by
  obtain ⟨⟨after, again⟩, delivered, acknowledged, firstContent, secondContent, once⟩ := rerun
  rw [List.append_assoc, List.singleton_append] at again
  replace again := again.symm
  have tidy := tidy_run fanOut members schedule
  have justified := tidy.orderly.explained
  obtain ⟨unacknowledged, writer, appended⟩ := justified before _ after again
  -- both entries were appended before the second delivery
  obtain ⟨earlier, later, isBefore⟩ := List.append_of_mem delivered
  have firstSplit : ((fanOut.system members).run schedule).world.bus.history =
      earlier ++ .delivered stream group first ::
        (later ++ .delivered stream group second :: after) := by
    rw [again, isBefore]
    simp
  obtain ⟨-, firstWriter, firstAppended⟩ := justified earlier _ _ firstSplit
  have firstBefore : .appended firstWriter stream first ∈ before :=
    isBefore ▸ List.mem_append_left _ firstAppended
  have inHistory : ∀ event ∈ before,
      event ∈ ((fanOut.system members).run schedule).world.bus.history :=
    fun event member => again ▸ List.mem_append_left _ member
  have cause : ∀ author entry, author ≠ .producer → .appended author stream entry ∈ before →
      fanOut.Retried before stream entry ∨
        fanOut.Replayed ((fanOut.system members).run schedule).world.deadLetters stream entry := by
    intro author entry other member
    cases author with
    | producer => exact absurd rfl other
    | replay => exact .inr (tidy.replayed stream entry (inHistory _ member))
    | pipeline =>
        obtain ⟨prior, rest, split⟩ := List.append_of_mem member
        have retried : fanOut.Retried prior stream entry :=
          justified prior (.appended .pipeline stream entry)
            (rest ++ .delivered stream group second :: after) (by
              rw [again, split]
              simp)
        obtain ⟨message, retryCount, now, ⟨source, received, reads⟩, facts⟩ := retried
        exact .inl ⟨message, retryCount, now,
          ⟨source, split ▸ List.mem_append_left _ received, reads⟩, facts⟩
  refine ⟨fun same => unacknowledged (same ▸ acknowledged), ?_⟩
  by_cases producers : firstWriter = .producer ∧ writer = .producer
  · obtain ⟨rfl, rfl⟩ := producers
    have same := once first second (inHistory _ firstBefore) (inHistory _ appended) firstContent
      secondContent
    exact absurd (same ▸ acknowledged) unacknowledged
  · rcases not_and_or.mp producers with other | other
    · exact ⟨first, firstContent, cause firstWriter first other firstBefore⟩
    · exact ⟨second, secondContent, cause writer second other appended⟩

end Runs

/-! ## Reruns -/

def plainFanOut : FanOut where
  pipeline := plainPipeline
  depth := 900
  errorText _ := "error"

/-- Nothing goes wrong. -/
def calm : FanOutChoice := {}

def marketEvent : Dict String Value := [("msg_id", .str "tick-1")]

/-- A producer, an agent and the pipeline on one stream. -/
def tickMembers : Fin 3 → Member
  | 0 => .process [.createConsumerGroup "market_events" "broadcast_pipeline" .latest,
      .createConsumerGroup "market_events" "workers:signal-generator" .latest,
      .publish "market_events" marketEvent none] (by simp [BusCall.StartsLatest])
  | 1 => .multiStream ⟨["market_events"], "signal-generator"⟩ 2
  | 2 => .pipeline 1

section

local instance neZeroThree : NeZero 3 := ⟨by decide⟩

/-- The agent processes the event, the broadcast of the pipeline fails, and the agent reads on. -/
def tickSchedule : List (Fin 3 × FanOutChoice) :=
  List.replicate 4 (0, calm) ++ List.replicate 4 (1, calm) ++ List.replicate 6 (2, calm) ++
    [(2, { raises := some "closed" })] ++ List.replicate 3 (2, calm) ++ List.replicate 2 (1, calm)

end

def tickRun : FanOutWorld := ((plainFanOut.system tickMembers).run tickSchedule).world

/-- A producer, two agents and a replay on one stream. -/
def fillMembers : Fin 4 → Member
  | 0 => .process [.createConsumerGroup "executions" "workers:grade-agent" .latest,
      .createConsumerGroup "executions" "workers:ic-updater" .latest,
      .publish "executions" marketEvent none] (by simp [BusCall.StartsLatest])
  | 1 => .multiStream ⟨["executions"], "grade-agent"⟩ 2
  | 2 => .multiStream ⟨["executions"], "ic-updater"⟩ 1
  | 3 => .replay "0-1"

/-- One agent processes the event, the other one fails; its dead letter is replayed, and the first
agent reads on. -/
def fillSchedule : List (Fin 4 × FanOutChoice) :=
  List.replicate 4 (0, calm) ++ List.replicate 4 (1, calm) ++ List.replicate 2 (2, calm) ++
    [(2, { outcome := .raised "boom" })] ++ List.replicate 2 (2, calm) ++
    List.replicate 35 (3, calm) ++ List.replicate 2 (1, calm)

def fillRun : FanOutWorld := ((plainFanOut.system fillMembers).run fillSchedule).world

def IsTick (fields : List (String × String)) : Prop := fields.lookup "msg_id" = some "tick-1"

def tickFields : List (String × String) :=
  [("msg_id", "tick-1"), ("schema_version", "v3"), ("timestamp", "1970-01-01T00:00:00+00:00")]

def publishedTick : FieldEntry := ⟨1, tickFields⟩

def retriedTick : FieldEntry := ⟨2, tickFields ++ [("retry_count", "1")]⟩

def replayedTick : FieldEntry := ⟨2, tickFields⟩

/-- What has happened before the agent is delivered the event again. -/
def beforeRetriedTick : List BusEvent :=
  [.groupCreated "market_events" "broadcast_pipeline",
    .groupCreated "market_events" "workers:signal-generator",
    .appended .producer "market_events" publishedTick,
    .delivered "market_events" "workers:signal-generator" publishedTick,
    .acknowledged "market_events" "workers:signal-generator" 1,
    .delivered "market_events" "broadcast_pipeline" publishedTick,
    .appended .pipeline "market_events" retriedTick,
    .acknowledged "market_events" "broadcast_pipeline" 1]

def beforeReplayedTick : List BusEvent :=
  [.groupCreated "executions" "workers:grade-agent",
    .groupCreated "executions" "workers:ic-updater",
    .appended .producer "executions" publishedTick,
    .delivered "executions" "workers:grade-agent" publishedTick,
    .acknowledged "executions" "workers:grade-agent" 1,
    .delivered "executions" "workers:ic-updater" publishedTick,
    .acknowledged "executions" "workers:ic-updater" 1,
    .appended .replay "executions" replayedTick]

theorem rerun_tick : Rerun tickRun.bus.history "market_events" "workers:signal-generator" IsTick
    beforeRetriedTick publishedTick retriedTick := by
  have history : tickRun.bus.history = beforeRetriedTick ++
      [.delivered "market_events" "workers:signal-generator" retriedTick] := by decide +kernel
  rw [history]
  exact ⟨List.prefix_refl _, by decide, by decide, rfl, rfl, by simp [beforeRetriedTick]⟩

theorem rerun_fill : Rerun fillRun.bus.history "executions" "workers:grade-agent" IsTick
    beforeReplayedTick publishedTick replayedTick := by
  have history : fillRun.bus.history = beforeReplayedTick ++
      [.delivered "executions" "workers:grade-agent" replayedTick] := by decide +kernel
  rw [history]
  exact ⟨List.prefix_refl _, by decide, by decide, rfl, rfl, by simp [beforeReplayedTick]⟩

/-- The failure of the pipeline reruns the agent, and so does the replay of the other agent's dead
letter. -/
theorem FanOut.failures_rerun_others :
    Rerun tickRun.bus.history "market_events" "workers:signal-generator" IsTick beforeRetriedTick
        publishedTick retriedTick ∧
      Rerun fillRun.bus.history "executions" "workers:grade-agent" IsTick beforeReplayedTick
        publishedTick replayedTick :=
  ⟨rerun_tick, rerun_fill⟩

theorem FanOut.tick_rerun_has_cause :
    retriedTick.id ≠ publishedTick.id ∧ ∃ entry, IsTick entry.data ∧
      (plainFanOut.Retried beforeRetriedTick "market_events" entry ∨
        plainFanOut.Replayed tickRun.deadLetters "market_events" entry) :=
  plainFanOut.rerun_cause tickMembers tickSchedule rerun_tick

end TradingControl.Events
