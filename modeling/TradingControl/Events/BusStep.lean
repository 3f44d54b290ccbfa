import Mathlib.Logic.Relation
import TradingControl.Events.EventBus

/-!
# Steps of the event bus

What one command can do to the streams and their history, and which commands the programs of the bus
issue.
-/

namespace TradingControl.Events

open Effects Python Streams

/-- The command moves groups, or makes them, only where that is allowed. -/
def BusOp.Allowed (moves : Prop) (starts : GroupStart → Prop) : BusOp → Prop
  | .xgroupSetid _ _ => moves
  | .xgroupCreate _ _ start => starts start
  | _ => True

namespace BusWorld

/-- One step of a party that may move groups to the end, and may make them at some places only. -/
inductive Step (author : Author) (moves : Prop) (starts : GroupStart → Prop) (world : BusWorld) :
    BusWorld → Prop where
  | appended (stream : String) (gap : ℕ) (fields : List (String × String)) :
      Step author moves starts world (world.append author stream gap fields).2
  | trimmed (stream : String) (count : ℕ) : Step author moves starts world (world.trim stream count)
  | read (stream group consumer : String) (count now : ℕ) (entries : List FieldEntry)
      (later : FieldStream)
      (answered : (world.streams stream).read group consumer count now = some (entries, later)) :
      Step author moves starts world
        (world.commit stream later (entries.map (.delivered stream group)))
  | claimed (stream group consumer : String) (minIdle count now : ℕ) (entries : List FieldEntry)
      (later : FieldStream)
      (answered : (world.streams stream).autoclaim group consumer minIdle count now =
        some (entries, later)) :
      Step author moves starts world
        (world.commit stream later (entries.map (.delivered stream group)))
  | acknowledged (stream group : String) (held : Streams.Group String)
      (entry : PendingEntry String) (isGroup : (world.streams stream).groups group = some held)
      (isPending : entry ∈ held.pending) :
      Step author moves starts world
        (world.commit stream ((world.streams stream).acknowledge group entry.id)
          [.acknowledged stream group entry.id])
  | created (stream group : String) (start : GroupStart) (allowed : starts start)
      (absent : (world.streams stream).groups group = none) :
      Step author moves starts world
        { world.commit stream (startGroup (world.streams stream) group start)
            [.groupCreated stream group] with
          groupNames := Function.update world.groupNames stream
            (world.groupNames stream ++ [group]) }
  | inspected (stream : String) :
      Step author moves starts world
        { world with
          history := world.history ++ (world.groupInfo stream).map (.inspected stream) }
  | moved (allowed : moves) (stream group : String) :
      Step author moves starts world (world.commit stream
        ((world.streams stream).moveToEnd group) [.groupMoved stream group])
  | lost (stream group : String) : Step author moves starts world (world.loseGroup stream group)

/-- Any number of steps. -/
abbrev Steps (author : Author) (moves : Prop) (starts : GroupStart → Prop) :
    BusWorld → BusWorld → Prop :=
  Relation.ReflTransGen (Step author moves starts)

variable {author : Author} {moves : Prop} {starts : GroupStart → Prop} {world : BusWorld}

theorem steps_acknowledge (stream group eventId : String) :
    Steps author moves starts world (world.acknowledge stream group eventId).2 := by
  rw [BusWorld.acknowledge]
  split
  · next entry found =>
      obtain ⟨held, isGroup, isEntry⟩ := Option.bind_eq_some_iff.mp found
      exact .single (.acknowledged stream group held entry isGroup
        (List.mem_of_find?_eq_some isEntry))
  · exact .refl

theorem steps_acknowledgeAll (stream group : String) (ids : List String) :
    Steps author moves starts world (world.acknowledgeAll stream group ids).2 := by
  induction ids generalizing world with
  | nil => exact .refl
  | cons eventId rest induction => exact (steps_acknowledge stream group eventId).trans induction

theorem steps_createGroup (stream group : String) {start : GroupStart} (allowed : starts start) :
    Steps author moves starts world (world.createGroup stream group start).2 := by
  rw [BusWorld.createGroup]
  split
  · exact .refl
  · next absent => exact .single (.created stream group start allowed absent)

theorem moveGroup_eq (stream group : String) :
    (world.moveGroup stream group).2 = world ∨
      (world.moveGroup stream group).2 =
        world.commit stream ((world.streams stream).moveToEnd group)
          [.groupMoved stream group] := by
  rw [moveGroup]
  split
  · exact .inr rfl
  · exact .inl rfl

theorem steps_busCommand {op : BusOp} (allowed : op.Allowed moves starts) (choice : BusChoice) :
    Steps author moves starts world (busCommand author op choice world).2 := by
  cases op with
  | utcNow => exact .refl
  | xadd stream fields maxlen =>
      cases maxlen with
      | none => exact .single (.appended stream choice.gap fields)
      | some limit =>
          exact .tail (.single (.trimmed stream choice.dropped))
            (.appended stream choice.gap fields)
  | xreadgroup stream group consumer count =>
      simp only [busCommand, BusWorld.deliver]
      split
      · next entries later answered =>
          exact .single (.read stream group consumer count choice.now entries later answered)
      · exact .refl
  | xack stream group ids => exact steps_acknowledgeAll stream group ids
  | xgroupCreate stream group start => exact steps_createGroup stream group allowed
  | xinfoGroups stream => exact .single (.inspected stream)
  | xinfoStream stream => exact .refl
  | xgroupSetid stream group =>
      rw [busCommand]
      rcases @moveGroup_eq world stream group with same | moved
      · rw [same]
      · exact moved ▸ .single (.moved allowed stream group)
  | xautoclaim stream group consumer minIdle =>
      simp only [busCommand, BusWorld.deliver]
      split
      · next entries later answered =>
          exact .single (.claimed stream group consumer minIdle 100 choice.now entries later
            answered)
      · exact .refl

/-- Whatever becomes of the command, it has been carried out or it has not. -/
theorem busHandler_world (op : BusOp) (choice : BusChoice) :
    (busHandler author op choice world).2 = world ∨
      (busHandler author op choice world).2 = (busCommand author op choice world).2 := by
  cases op with
  | utcNow => exact .inl rfl
  | _ =>
      simp only [busHandler, commandReply]
      cases choice.reply with
      | lost => exact .inl rfl
      | _ => exact .inr rfl

theorem steps_busHandler {op : BusOp} (allowed : op.Allowed moves starts) (choice : BusChoice) :
    Steps author moves starts world (busHandler author op choice world).2 := by
  rcases busHandler_world op choice with same | done
  · exact same ▸ .refl
  · exact done ▸ steps_busCommand allowed choice

theorem steps_exec {α : Type} {program : Bus α} (calls : program.Calls (BusOp.Allowed moves starts))
    (choices : ℕ → BusChoice) :
    Steps author moves starts world (program.exec (busHandler author) choices world).2 :=
  Handler.exec_of_calls (fun _ allowed choice _ steps =>
    steps.trans (steps_busHandler allowed choice)) calls choices .refl

end BusWorld

/-! ## Programs -/

section Programs

variable {moves : Prop} {starts : GroupStart → Prop}

theorem calls_command {op : BusOp} (allowed : op.Allowed moves starts) :
    (command op).Calls (BusOp.Allowed moves starts) :=
  Program.calls_perform allowed

namespace EventBus

variable (codec : Codec)

theorem calls_ensureStreamAndGroup (latest : starts .latest) (stream group : String) :
    (ensureStreamAndGroup stream group).Calls (BusOp.Allowed moves starts) :=
  Program.calls_bind (Program.calls_attempt (calls_command latest)) fun _ => trivial

theorem calls_selfHeal (latest : starts .latest) (stream group : String) (failure : BusFailure) :
    (selfHeal stream group failure).Calls (BusOp.Allowed moves starts) := by
  cases failure with
  | noGroup =>
      exact Program.calls_bind (calls_ensureStreamAndGroup latest stream group) fun _ => trivial
  | _ => trivial

/-- A read, with what becomes of its failures. -/
theorem calls_read (latest : starts .latest) (stream group : String) {read : Bus (List Message)}
    (calls : read.Calls (BusOp.Allowed moves starts)) :
    (read.tryCatch (selfHeal stream group)).Calls (BusOp.Allowed moves starts) := by
  refine Program.calls_bind (Program.calls_attempt calls) fun outcome => ?_
  cases outcome with
  | error failure => exact calls_selfHeal latest stream group failure
  | ok messages => trivial

theorem calls_decodeEntries (entries : List FieldEntry) :
    (decodeEntries codec entries).Calls (BusOp.Allowed moves starts) := by
  rw [decodeEntries]
  split <;> trivial

theorem calls_consume (latest : starts .latest) (stream group consumer : String) (count : ℕ) :
    (consume codec stream group consumer count).Calls (BusOp.Allowed moves starts) :=
  calls_read latest stream group <| Program.calls_bind (calls_command (by trivial))
    fun entries => calls_decodeEntries codec entries

theorem calls_reclaimStale (latest : starts .latest) (stream group consumer : String)
    (minIdle : ℕ) :
    (reclaimStale codec stream group consumer minIdle).Calls (BusOp.Allowed moves starts) :=
  calls_read latest stream group <| Program.calls_bind (calls_command (by trivial))
    fun entries => calls_decodeEntries codec entries

theorem calls_acknowledge (stream group : String) (ids : List String) :
    (acknowledge stream group ids).Calls (BusOp.Allowed moves starts) := by
  rw [acknowledge]
  split
  · trivial
  · refine Program.calls_bind (Program.calls_attempt (calls_command (by trivial)))
      fun outcome => ?_
    cases outcome <;> trivial

theorem calls_publish (stream : String) (event : Dict String Value) (maxlen : Option ℕ) :
    (publish codec stream event maxlen).Calls (BusOp.Allowed moves starts) := by
  refine Program.calls_bind (calls_command (by trivial)) fun now => ?_
  refine Program.calls_bind (Program.calls_attempt (calls_command (by trivial)))
    fun outcome => ?_
  cases outcome <;> trivial

theorem calls_createConsumerGroup (stream group : String) {start : GroupStart}
    (allowed : starts start) :
    (createConsumerGroup stream group start).Calls (BusOp.Allowed moves starts) := by
  refine Program.calls_bind (Program.calls_attempt (calls_command allowed)) fun outcome => ?_
  rcases outcome with failure | _
  · cases failure <;> trivial
  · trivial

theorem calls_allMissing (names : List String) :
    (allMissing names).Calls (BusOp.Allowed moves starts) := by
  induction names with
  | nil => trivial
  | cons stream rest induction =>
      refine Program.calls_bind ?_ fun missing =>
        Program.calls_bind induction fun others => trivial
      refine Program.calls_bind (Program.calls_attempt (calls_command (by trivial)))
        fun outcome => ?_
      cases outcome <;> trivial

theorem calls_ensureAll (latest : starts .latest) (missing : List (String × String)) :
    (ensureAll missing).Calls (BusOp.Allowed moves starts) := by
  induction missing with
  | nil => trivial
  | cons first rest induction =>
      exact Program.calls_bind (calls_ensureStreamAndGroup latest first.1 first.2)
        fun _ => induction

/-- The programs of a start move groups, too. -/
theorem calls_fastforwardGroups (allowed : moves) (stream : String) (infos : List GroupInfo) :
    (fastforwardGroups stream infos).Calls (BusOp.Allowed moves starts) := by
  induction infos with
  | nil => trivial
  | cons info rest induction =>
      rw [fastforwardGroups]
      split
      · exact Program.calls_bind (calls_command allowed) fun _ => induction
      · exact induction

theorem calls_maybeFastforwardGroup (allowed : moves) (stream : String) :
    (maybeFastforwardGroup stream).Calls (BusOp.Allowed moves starts) := by
  refine Program.calls_bind (Program.calls_attempt ?_) fun _ => trivial
  refine Program.calls_bind (calls_command (by trivial)) fun infos => ?_
  refine Program.calls_bind (calls_command (by trivial)) fun lastEntry => ?_
  split
  · trivial
  · exact calls_fastforwardGroups allowed stream infos

theorem calls_createOrFastforward (allowed : moves) (latest : starts .latest)
    (stream group : String) :
    (createOrFastforward stream group).Calls (BusOp.Allowed moves starts) := by
  refine Program.calls_bind (Program.calls_attempt (calls_command latest)) fun outcome => ?_
  rcases outcome with failure | _
  · cases failure with
    | busyGroup =>
        change (if group = defaultGroup then _ else _ : Bus Unit).Calls _
        split
        · exact calls_maybeFastforwardGroup allowed stream
        · trivial
    | _ => trivial
  · trivial

theorem calls_createGroupsOf (allowed : moves) (latest : starts .latest) (names : List String) :
    (createGroupsOf names).Calls (BusOp.Allowed moves starts) := by
  induction names with
  | nil => trivial
  | cons stream rest induction =>
      exact Program.calls_bind (calls_createOrFastforward allowed latest stream defaultGroup)
        fun _ => Program.calls_bind (calls_createOrFastforward allowed latest stream pipelineGroup)
          fun _ => induction

theorem calls_ensureAllStreamsReady (allowed : moves) (latest : starts .latest) :
    ensureAllStreamsReady.Calls (BusOp.Allowed moves starts) :=
  Program.calls_bind (calls_createGroupsOf allowed latest streams) fun _ =>
    Program.calls_bind (calls_allMissing streams) fun missing => calls_ensureAll latest missing

/-! ### Messages that are read -/

theorem mem_of_mapM {entries : List FieldEntry} {messages : List Message}
    (decoded : entries.mapM (decodeEntry codec) = .ok messages) {message : Message}
    (member : message ∈ messages) : ∃ entry ∈ entries, decodeEntry codec entry = .ok message := by
  induction entries generalizing messages with
  | nil =>
      obtain rfl : [] = messages := by simpa [pure, Except.pure] using decoded
      simp at member
  | cons entry rest induction =>
      rw [List.mapM_cons, bind_eq_ok] at decoded
      obtain ⟨first, isFirst, others⟩ := decoded
      obtain ⟨tail, isTail, result⟩ := bind_eq_ok.mp others
      obtain rfl : first :: tail = messages := by simpa [pure, Except.pure] using result
      rcases List.mem_cons.mp member with rfl | inTail
      · exact ⟨entry, List.mem_cons_self, isFirst⟩
      · obtain ⟨held, isHeld, same⟩ := induction isTail inTail
        exact ⟨held, List.mem_cons_of_mem entry isHeld, same⟩

/-- The group was delivered an entry that reads as the message. -/
def Received (history : List BusEvent) (stream group : String) (message : Message) : Prop :=
  ∃ entry, .delivered stream group entry ∈ history ∧ decodeEntry codec entry = .ok message

/-- What `consume` returns was delivered to its group. -/
theorem received_of_consume {author : Author} {stream group consumer : String} {count : ℕ}
    {choices : ℕ → BusChoice} {world : BusWorld} {messages : List Message}
    (returned : ((consume codec stream group consumer count).exec (busHandler author) choices
      world).1 = .ok messages) {message : Message} (member : message ∈ messages) :
    Received codec ((consume codec stream group consumer count).exec (busHandler author) choices
      world).2.history stream group message := by
  have healed : ∀ failure, (selfHeal stream group failure).Returns (· = []) := by
    intro failure
    cases failure with
    | noGroup => exact Program.returns_bind_any fun _ => rfl
    | _ => exact rfl
  have holds : (consume codec stream group consumer count).wp
      ((busHandler author).demonic fun _ => True) (fun outcome after => ∀ messages,
        outcome = .ok messages → ∀ message ∈ messages,
          Received codec after.history stream group message) world := by
    have failed : ∀ failure after, (selfHeal stream group failure).wp
        ((busHandler author).demonic fun _ => True) (fun outcome after => ∀ messages,
          outcome = .ok messages → ∀ message ∈ messages,
            Received codec after.history stream group message) after := by
      intro failure after
      refine Program.wp_mono (Handler.demonic_monotone _ _) (fun outcome after empty => ?_)
        (Handler.wp_of_returns (healed failure) after)
      rintro messages isOk message member
      rw [empty messages isOk] at member
      simp at member
    rw [consume, Program.wp_tryCatch, Program.bind_eq_bind, Program.wp_bind, command,
      Program.wp_perform]
    intro choice _
    simp only [busHandler, commandReply]
    cases choice.reply with
    | lost => exact failed _ _
    | unacknowledged => exact failed _ _
    | answered =>
        simp only [busCommand, BusWorld.deliver]
        cases (world.streams stream).read group consumer count choice.now with
        | none => exact failed _ _
        | some answer =>
            rw [Program.andThen_ok, decodeEntries]
            cases decoded : answer.1.mapM (decodeEntry codec) with
            | error error => exact failed _ _
            | ok messages =>
                rintro _ ⟨⟩ message member
                obtain ⟨entry, isEntry, reads⟩ := mem_of_mapM codec decoded member
                exact ⟨entry, List.mem_append_right _ (List.mem_map_of_mem isEntry), reads⟩
  exact Handler.exec_of_wp holds choices (fun _ => trivial) messages returned message member

end EventBus

end Programs

end TradingControl.Events
