import TradingControl.Effects.History
import TradingControl.Events.BusStep
import TradingControl.Events.Processes
import TradingControl.Python.Reference

/-!
# Positions of consumer groups

A group's position passes an entry by delivering it, unless the entry was trimmed, the group was
made anew, or it was moved to the end.  Every step of the bus is accounted for by its events.
-/

namespace TradingControl.Events

open Effects Python Streams

/-! ## Positions -/

/-- How a group's position may pass an entry. -/
def Passed (stream group : String) (entry : FieldEntry) (after : List BusEvent) : Prop :=
  .delivered stream group entry ∈ after ∨ .trimmed stream entry ∈ after ∨
    .groupCreated stream group ∈ after ∨ .groupMoved stream group ∈ after

theorem Passed.mono {stream group : String} {entry : FieldEntry} {after later : List BusEvent}
    (passed : Passed stream group entry after) (subset : after ⊆ later) :
    Passed stream group entry later :=
  passed.imp (@subset _) (Or.imp (@subset _) (Or.imp (@subset _) (@subset _)))

/-- What the history says about the streams. -/
structure Positions (streams : String → FieldStream) (history : List BusEvent) : Prop where
  kept : ∀ before author stream entry after,
    history = before ++ .appended author stream entry :: after →
      entry ∈ (streams stream).entries ∨ .trimmed stream entry ∈ after
  passed : ∀ before author stream entry after group held,
    history = before ++ .appended author stream entry :: after →
      .groupCreated stream group ∈ before → (streams stream).groups group = some held →
        entry.id ≤ held.lastDelivered → Passed stream group entry after
  present : ∀ stream group, .groupCreated stream group ∈ history →
    .groupLost stream group ∉ history → ((streams stream).groups group).isSome

/-- A group's new position leaves out no entry that is not accounted for. -/
def PassesRightly (stream : String) (old : FieldStream) (events : List BusEvent)
    (group : String) (held : Streams.Group String) : Prop :=
  .groupMoved stream group ∈ events ∨ .groupCreated stream group ∈ events ∨
    ∃ before, old.groups group = some before ∧ ∀ entry ∈ old.entries,
      before.lastDelivered < entry.id → entry.id ≤ held.lastDelivered →
        .delivered stream group entry ∈ events

/-- A change of one stream that its events account for, and that appends nothing. -/
structure Advances (stream : String) (old later : FieldStream) (events : List BusEvent) :
    Prop where
  entries : ∀ entry ∈ old.entries, entry ∈ later.entries ∨ .trimmed stream entry ∈ events
  passed : ∀ group held, later.groups group = some held →
    PassesRightly stream old events group held
  present : ∀ group, (old.groups group).isSome ∨ .groupCreated stream group ∈ events →
    (later.groups group).isSome ∨ .groupLost stream group ∈ events
  created : ∀ other group, .groupCreated other group ∈ events → other = stream
  quiet : ∀ author other entry, .appended author other entry ∉ events

section Positions

variable {streams : String → FieldStream} {history : List BusEvent}

theorem positions_empty : Positions (fun _ => Streams.Stream.empty) [] where
  kept := by
    intro before author stream entry after split
    simp at split
  passed := by
    intro before author stream entry after group held split
    simp at split
  present := by simp

/-- A change that its events account for keeps the positions. -/
theorem Positions.advance (positions : Positions streams history) {stream : String}
    {later : FieldStream} {events : List BusEvent}
    (advances : Advances stream (streams stream) later events) :
    Positions (Function.update streams stream later) (history ++ events) where
  kept := by
    intro before author other entry after split
    rcases split_append split with ⟨between, isHistory, rfl⟩ | ⟨between, -, isEvents⟩
    · rcases positions.kept before author other entry between isHistory with present | trimmed
      · by_cases same : other = stream
        · subst same
          rw [Function.update_self]
          exact (advances.entries entry present).imp_right (List.mem_append_right _)
        · rw [Function.update_of_ne same]
          exact .inl present
      · exact .inr (List.mem_append_left _ trimmed)
    · exact absurd (isEvents ▸ List.mem_append_right _ List.mem_cons_self)
        (advances.quiet author other entry)
  passed := by
    intro before author other entry after group held split created isGroup within
    rcases split_append split with ⟨between, isHistory, rfl⟩ | ⟨between, -, isEvents⟩
    · have already : ∀ before', (streams other).groups group = some before' →
          entry.id ≤ before'.lastDelivered → Passed other group entry (between ++ events) :=
        fun before' isBefore bound =>
          (positions.passed before author other entry between group before' isHistory created
            isBefore bound).mono (List.subset_append_left _ _)
      by_cases same : other = stream
      · subst same
        rw [Function.update_self] at isGroup
        rcases advances.passed group held isGroup with moved | made | ⟨before', isBefore, passing⟩
        · exact .inr (.inr (.inr (List.mem_append_right _ moved)))
        · exact .inr (.inr (.inl (List.mem_append_right _ made)))
        · rcases le_or_gt entry.id before'.lastDelivered with bound | ahead
          · exact already before' isBefore bound
          · rcases positions.kept before author other entry between isHistory with
              present | trimmed
            · exact .inl (List.mem_append_right _ (passing entry present ahead within))
            · exact .inr (.inl (List.mem_append_left _ trimmed))
      · rw [Function.update_of_ne same] at isGroup
        exact already held isGroup within
    · exact absurd (isEvents ▸ List.mem_append_right _ List.mem_cons_self)
        (advances.quiet author other entry)
  present := by
    intro other group created unlost
    rw [List.mem_append, not_or] at unlost
    by_cases same : other = stream
    · subst same
      rw [Function.update_self]
      refine (advances.present group ?_).resolve_right unlost.2
      exact (List.mem_append.mp created).imp_left fun earlier =>
        positions.present other group earlier unlost.1
    · rw [Function.update_of_ne same]
      rcases List.mem_append.mp created with earlier | new
      · exact positions.present other group earlier unlost.1
      · exact absurd (advances.created other group new) same

/-- A new entry is ahead of every group. -/
theorem Positions.append (positions : Positions streams history) (author : Author)
    (stream : String) (gap : ℕ) (fields : List (String × String)) :
    Positions (Function.update streams stream ((streams stream).append gap fields))
      (history ++
        [.appended author stream ⟨((streams stream).append gap fields).lastGenerated, fields⟩])
    where
  kept := by
    intro before writer other entry after split
    rcases split_concat split with ⟨between, isHistory, rfl⟩ | ⟨-, isEntry, -⟩
    · rcases positions.kept before writer other entry between isHistory with present | trimmed
      · by_cases same : other = stream
        · subst same
          rw [Function.update_self]
          exact .inl (List.mem_append_left _ present)
        · rw [Function.update_of_ne same]
          exact .inl present
      · exact .inr (List.mem_append_left _ trimmed)
    · obtain ⟨-, rfl, rfl⟩ := BusEvent.appended.inj isEntry
      rw [Function.update_self]
      exact .inl (List.mem_append_right _ (List.mem_singleton_self _))
  passed := by
    intro before writer other entry after group held split created isGroup within
    have sameGroups : ((Function.update streams stream ((streams stream).append gap fields))
        other).groups = (streams other).groups := by
      by_cases same : other = stream
      · subst same
        rw [Function.update_self]
        rfl
      · rw [Function.update_of_ne same]
    rw [sameGroups] at isGroup
    rcases split_concat split with ⟨between, isHistory, rfl⟩ | ⟨-, isEntry, -⟩
    · exact (positions.passed before writer other entry between group held isHistory created
        isGroup within).mono (List.subset_append_left _ _)
    · obtain ⟨-, rfl, rfl⟩ := BusEvent.appended.inj isEntry
      have behind := (streams other).positions group held isGroup
      have ahead : (streams other).lastGenerated <
          ((streams other).append gap fields).lastGenerated := by
        change (streams other).lastGenerated < (streams other).lastGenerated + 1 + gap
        omega
      exact absurd (ahead.trans_le (within.trans behind)) (lt_irrefl _)
  present := by
    intro other group created unlost
    have earlier : .groupCreated other group ∈ history := by simpa using created
    have kept : .groupLost other group ∉ history := by simpa using unlost
    have present := positions.present other group earlier kept
    by_cases same : other = stream
    · subst same
      rwa [Function.update_self]
    · rwa [Function.update_of_ne same]

end Positions

/-! ## Steps -/

section Steps

variable {stream : String} {old : FieldStream}

/-- A change that moves no group past an entry. -/
theorem Advances.of_groups {later : FieldStream} {events : List BusEvent}
    (entries : ∀ entry ∈ old.entries, entry ∈ later.entries ∨ .trimmed stream entry ∈ events)
    (groups : later.groups = old.groups)
    (created : ∀ other group, .groupCreated other group ∉ events)
    (quiet : ∀ author other entry, .appended author other entry ∉ events) :
    Advances stream old later events where
  entries := entries
  passed := by
    intro group held isGroup
    refine .inr (.inr ⟨held, groups ▸ isGroup, fun entry _ ahead within => ?_⟩)
    exact absurd (ahead.trans_le within) (lt_irrefl _)
  present := by
    rintro group (present | made)
    · exact .inl (groups ▸ present)
    · exact absurd made (created stream group)
  created other group made := absurd made (created other group)
  quiet := quiet

theorem Advances.of_setGroup {name : String} {group : Streams.Group String}
    (within : group.lastDelivered ≤ old.lastGenerated) {events : List BusEvent}
    (passed : PassesRightly stream old events name group)
    (created : ∀ other group, .groupCreated other group ∈ events → other = stream ∧ group = name)
    (quiet : ∀ author other entry, .appended author other entry ∉ events) :
    Advances stream old (old.setGroup name group within) events where
  entries _ present := .inl present
  passed := by
    intro other held isGroup
    by_cases same : other = name
    · subst same
      rw [Streams.Stream.setGroup_groups, Function.update_self, Option.some.injEq] at isGroup
      exact isGroup ▸ passed
    · rw [Streams.Stream.setGroup_groups, Function.update_of_ne same] at isGroup
      refine .inr (.inr ⟨held, isGroup, fun entry _ ahead bound => ?_⟩)
      exact absurd (ahead.trans_le bound) (lt_irrefl _)
  present := by
    intro other present
    left
    rw [Streams.Stream.setGroup_groups]
    by_cases same : other = name
    · subst same
      rw [Function.update_self]
      rfl
    · rw [Function.update_of_ne same]
      exact present.resolve_right fun made => same (created stream other made).2
  created other group made := (created other group made).1
  quiet := quiet

theorem advances_trim (count : ℕ) :
    Advances stream old (old.trim count) ((old.entries.take count).map (.trimmed stream)) := by
  refine .of_groups (fun entry present => ?_) rfl (by simp [-List.map_take])
    (by simp [-List.map_take])
  rw [← List.take_append_drop count old.entries] at present
  rcases List.mem_append.mp present with dropped | left
  · exact .inr (List.mem_map_of_mem dropped)
  · exact .inl left

theorem advances_read {group consumer : String} {count now : ℕ} {entries : List FieldEntry}
    {later : FieldStream} (answered : old.read group consumer count now = some (entries, later)) :
    Advances stream old later (entries.map (.delivered stream group)) := by
  obtain ⟨held, isGroup, rfl, rfl⟩ := Streams.Stream.read_eq_some answered
  refine .of_setGroup _ (.inr (.inr ⟨held, isGroup, fun entry present ahead within => ?_⟩))
    (by simp [-List.map_take]) (by simp [-List.map_take])
  exact List.mem_map_of_mem (Streams.Stream.mem_take_of_le_positionAfter present ahead within)

theorem advances_autoclaim {group consumer : String} {minIdle count now : ℕ}
    {entries : List FieldEntry} {later : FieldStream}
    (answered : old.autoclaim group consumer minIdle count now = some (entries, later)) :
    Advances stream old later (entries.map (.delivered stream group)) := by
  obtain ⟨held, isGroup, -, rfl⟩ := Streams.Stream.autoclaim_eq_some answered
  refine .of_setGroup _ (.inr (.inr ⟨held, isGroup, fun entry present ahead within => ?_⟩))
    (by simp) (by simp)
  exact absurd (ahead.trans_le within) (lt_irrefl _)

theorem advances_acknowledge (group : String) (id : ℕ) :
    Advances stream old (old.acknowledge group id) [.acknowledged stream group id] := by
  rw [Streams.Stream.acknowledge]
  split
  · exact .of_groups (fun _ present => .inl present) rfl (by simp) (by simp)
  · next held isGroup =>
      refine .of_setGroup _ (.inr (.inr ⟨held, isGroup, fun entry _ ahead within => ?_⟩))
        (by simp) (by simp)
      exact absurd (ahead.trans_le within) (lt_irrefl _)

theorem advances_startGroup (group : String) (start : GroupStart) :
    Advances stream old (BusWorld.startGroup old group start) [.groupCreated stream group] := by
  cases start with
  | beginning =>
      exact .of_setGroup (Nat.zero_le _) (.inr (.inl (List.mem_singleton_self _))) (by simp)
        (by simp)
  | latest =>
      exact .of_setGroup le_rfl (.inr (.inl (List.mem_singleton_self _))) (by simp) (by simp)

theorem advances_moveToEnd (group : String) :
    Advances stream old (old.moveToEnd group) [.groupMoved stream group] := by
  rw [Streams.Stream.moveToEnd]
  split
  · exact .of_groups (fun _ present => .inl present) rfl (by simp) (by simp)
  · exact .of_setGroup _ (.inl (List.mem_singleton_self _)) (by simp) (by simp)

theorem advances_removeGroup (group : String) :
    Advances stream old (old.removeGroup group) [.groupLost stream group] where
  entries _ present := .inl present
  passed := by
    intro other held isGroup
    by_cases same : other = group
    · subst same
      simp [Streams.Stream.removeGroup] at isGroup
    · simp only [Streams.Stream.removeGroup, Function.update_of_ne same] at isGroup
      refine .inr (.inr ⟨held, isGroup, fun entry _ ahead bound => ?_⟩)
      exact absurd (ahead.trans_le bound) (lt_irrefl _)
  present := by
    intro other present
    by_cases same : other = group
    · exact .inr (by simp [same])
    · left
      simp only [Streams.Stream.removeGroup, Function.update_of_ne same]
      simpa using present
  created := by simp
  quiet := by simp

end Steps

end TradingControl.Events

/-!
# Fast-forwarding at a restart

Processes publish, read, acknowledge and restart side by side, while Redis may trim streams and lose
groups.  A restart moves the agents' group only where it has found it with nothing pending and at
the beginning; all else that a group passes without a delivery was trimmed, or came before the group
was made anew.
-/

namespace TradingControl.Events

open Effects Python Streams

/-! ## Guarantee -/

/-- A group is made anew only after it was lost, and moved only after an inspection has found it
with nothing pending and at the beginning. -/
def Warranted (before : List BusEvent) : BusEvent → Prop
  | .groupCreated stream group =>
      .groupCreated stream group ∈ before → .groupLost stream group ∈ before
  | .groupMoved stream group =>
      group = defaultGroup ∧ ∃ info, .inspected stream info ∈ before ∧ info.name = group ∧
        info.pending = 0 ∧ info.lastDeliveredId ∈ EventBus.beginningIds
  | _ => True

/-- What every process keeps. -/
def busGuarantee : Guarantee BusWorld :=
  keepingHistory BusWorld.history Warranted fun world => Positions world.streams world.history

section Guarantee

variable {world : BusWorld}

theorem kept_commit (kept : busGuarantee.invariant world) {stream : String} {later : FieldStream}
    {events : List BusEvent} (advances : Advances stream (world.streams stream) later events)
    (warranted : ∀ event ∈ events, ∀ between, between ⊆ events →
      Warranted (world.history ++ between) event) :
    busGuarantee.invariant (world.commit stream later events) :=
  ⟨kept.1.advance advances, kept.2.append warranted⟩

theorem kept_step {author : Author} {after : BusWorld} (kept : busGuarantee.invariant world)
    (step : BusWorld.Step author False (fun _ => True) world after) :
    busGuarantee.invariant after ∧ world.history <+: after.history := by
  cases step with
  | moved allowed stream group => exact allowed.elim
  | appended stream gap fields =>
      exact ⟨⟨kept.1.append author stream gap fields, kept.2.concat trivial⟩,
        List.prefix_append _ _⟩
  | trimmed stream count =>
      refine ⟨kept_commit kept (advances_trim count) fun event member between _ => ?_,
        List.prefix_append _ _⟩
      obtain ⟨entry, -, rfl⟩ := List.mem_map.mp member
      trivial
  | read stream group consumer count now entries later answered =>
      refine ⟨kept_commit kept (advances_read answered) fun event member between _ => ?_,
        List.prefix_append _ _⟩
      obtain ⟨entry, -, rfl⟩ := List.mem_map.mp member
      trivial
  | claimed stream group consumer minIdle count now entries later answered =>
      refine ⟨kept_commit kept (advances_autoclaim answered) fun event member between _ => ?_,
        List.prefix_append _ _⟩
      obtain ⟨entry, -, rfl⟩ := List.mem_map.mp member
      trivial
  | acknowledged stream group held entry isGroup isPending =>
      refine ⟨kept_commit kept (advances_acknowledge group entry.id) fun event member _ _ => ?_,
        List.prefix_append _ _⟩
      rw [List.mem_singleton.mp member]
      trivial
  | created stream group start _ absent =>
      refine ⟨⟨kept.1.advance (advances_startGroup group start), kept.2.concat fun earlier => ?_⟩,
        List.prefix_append _ _⟩
      by_contra unlost
      have present := kept.1.present stream group earlier unlost
      simp [absent] at present
  | inspected stream =>
      have unchanged := @Advances.of_groups stream (world.streams stream) (world.streams stream)
        ((world.groupInfo stream).map (.inspected stream)) (fun _ present => .inl present) rfl
        (by simp) (by simp)
      have advanced := kept.1.advance unchanged
      rw [Function.update_eq_self] at advanced
      refine ⟨⟨advanced, kept.2.append fun event member between _ => ?_⟩, List.prefix_append _ _⟩
      obtain ⟨info, -, rfl⟩ := List.mem_map.mp member
      trivial
  | lost stream group =>
      exact ⟨⟨kept.1.advance (advances_removeGroup group), kept.2.concat trivial⟩,
        List.prefix_append _ _⟩

theorem kept_steps {author : Author} {after : BusWorld} (kept : busGuarantee.invariant world)
    (steps : BusWorld.Steps author False (fun _ => True) world after) :
    busGuarantee.invariant after ∧ world.history <+: after.history := by
  induction steps with
  | refl => exact ⟨kept, List.prefix_refl _⟩
  | tail _ step induction =>
      obtain ⟨kept', grown⟩ := kept_step induction.1 step
      exact ⟨kept', induction.2.trans grown⟩

/-- The command moves no group. -/
abbrev BusOp.Stays : BusOp → Prop := BusOp.Allowed False fun _ => True

theorem keeps_of_stays {author : Author} {op : BusOp} (stays : op.Stays) :
    busGuarantee.Keeps (busHandler author) op :=
  fun choice _ kept => kept_steps kept (BusWorld.steps_busHandler stays choice)

end Guarantee

/-! ## Programs -/

section Programs

variable {codec : Codec} {author : Author} {known : BusWorld}

/-- A program that moves no group. -/
theorem sound_of_stays {α : Type} {program : Bus α} (calls : program.Calls BusOp.Stays)
    (known : BusWorld) : busGuarantee.SoundFrom (busHandler author) known program :=
  Guarantee.soundFrom_of_keeps (calls.mono fun _ stays => keeps_of_stays stays) known

theorem wp_xinfoGroups (stream : String)
    {post : Except BusFailure (List GroupInfo) → BusWorld → Prop}
    (answered : ∀ infos world, known.history <+: world.history →
      (∀ info ∈ infos, .inspected stream info ∈ world.history) → post (.ok infos) world)
    (failed : ∀ failure world, known.history <+: world.history → post (.error failure) world) :
    (command (.xinfoGroups stream)).wp (busGuarantee.relying (busHandler author)) post known := by
  rw [command, Program.wp_perform]
  intro choice world kept grown
  obtain ⟨kept', grown'⟩ :=
    @keeps_of_stays author (.xinfoGroups stream) (by trivial) choice world kept
  refine ⟨kept', grown', ?_⟩
  simp only [busHandler, commandReply] at grown' ⊢
  cases reply : choice.reply with
  | answered =>
      rw [reply] at grown'
      exact answered _ _ (grown.trans grown') fun info member =>
        List.mem_append_right _ (List.mem_map_of_mem member)
  | lost => exact failed _ _ grown
  | unacknowledged =>
      rw [reply] at grown'
      exact failed _ _ (grown.trans grown')

/-- A group may be moved once it was found at the beginning. -/
theorem sound_xgroupSetid {stream : String} {info : GroupInfo}
    (inspected : .inspected stream info ∈ known.history) (name : info.name = defaultGroup)
    (pending : info.pending = 0) (beginning : info.lastDeliveredId ∈ EventBus.beginningIds) :
    busGuarantee.SoundFrom (busHandler author) known
      (command (.xgroupSetid stream defaultGroup)) := by
  rw [Guarantee.SoundFrom, command, Program.wp_perform]
  intro choice world kept grown
  rcases @BusWorld.busHandler_world author world (.xgroupSetid stream defaultGroup) choice with
    same | done
  · rw [same]
    exact ⟨kept, List.prefix_refl _, grown⟩
  · rcases @BusWorld.moveGroup_eq world stream defaultGroup with same | moved
    · rw [done, busCommand, same]
      exact ⟨kept, List.prefix_refl _, grown⟩
    · rw [done, busCommand, moved]
      refine ⟨kept_commit kept (advances_moveToEnd defaultGroup) fun event member between _ => ?_,
        List.prefix_append _ _, grown.trans (List.prefix_append _ _)⟩
      rw [List.mem_singleton.mp member]
      exact ⟨rfl, info, List.mem_append_left _ (grown.subset inspected), name, pending, beginning⟩

theorem sound_fastforwardGroups {stream : String} {infos : List GroupInfo}
    (inspected : ∀ info ∈ infos, .inspected stream info ∈ known.history) :
    busGuarantee.SoundFrom (busHandler author) known
      (EventBus.fastforwardGroups stream infos) := by
  induction infos generalizing known with
  | nil => exact Guarantee.soundFrom_ret known ()
  | cons info rest induction =>
      have others : ∀ later, known.history <+: later.history →
          busGuarantee.SoundFrom (busHandler author) later
            (EventBus.fastforwardGroups stream rest) := by
        intro later grown
        exact induction fun other member =>
          grown.subset (inspected other (List.mem_cons_of_mem info member))
      rw [EventBus.fastforwardGroups]
      split
      · next found =>
          simp only [Bool.and_eq_true, decide_eq_true_eq, List.contains_iff_mem] at found
          refine Guarantee.SoundFrom.bind (sound_xgroupSetid
            (inspected info List.mem_cons_self) found.1.1 found.1.2 found.2)
            fun _ later grown => others later grown
      · exact others known (List.prefix_refl _)

theorem sound_maybeFastforwardGroup (stream : String) :
    busGuarantee.SoundFrom (busHandler author) known
      (EventBus.maybeFastforwardGroup stream) := by
  refine Guarantee.SoundFrom.bind (Guarantee.SoundFrom.attempt ?_)
    fun _ later _ => Guarantee.soundFrom_ret later ()
  rw [Guarantee.SoundFrom, Program.bind_eq_bind, Program.wp_bind]
  refine wp_xinfoGroups stream (fun infos later grown inspected => ?_)
    fun _ _ grown => grown
  have rest : busGuarantee.SoundFrom (busHandler author) later (do
      let lastEntry ← command (.xinfoStream stream)
      if lastEntry = "" then return
      EventBus.fastforwardGroups stream infos) := by
    refine Guarantee.SoundFrom.bind
      (sound_of_stays (calls_command (by trivial)) later) fun lastEntry later further => ?_
    split
    · exact Guarantee.soundFrom_ret later ()
    · exact sound_fastforwardGroups fun info member => further.subset (inspected info member)
  exact rest.mono fun _ _ further => grown.trans further

theorem sound_createOrFastforward (stream group : String) :
    busGuarantee.SoundFrom (busHandler author) known
      (EventBus.createOrFastforward stream group) := by
  refine Guarantee.SoundFrom.bind (Guarantee.SoundFrom.attempt
    (sound_of_stays (calls_command (by trivial)) known)) fun outcome later _ => ?_
  rcases outcome with failure | _
  · cases failure with
    | busyGroup =>
        change busGuarantee.SoundFrom _ later (if group = defaultGroup then _ else _)
        split
        · exact sound_maybeFastforwardGroup stream
        · exact Guarantee.soundFrom_ret later ()
    | _ => exact Guarantee.soundFrom_raise later _
  · exact Guarantee.soundFrom_ret later ()

theorem sound_createGroupsOf (names : List String) :
    busGuarantee.SoundFrom (busHandler author) known (EventBus.createGroupsOf names) := by
  induction names generalizing known with
  | nil => exact Guarantee.soundFrom_ret known ()
  | cons stream rest induction =>
      refine Guarantee.SoundFrom.bind (sound_createOrFastforward stream defaultGroup)
        fun _ later _ => ?_
      exact Guarantee.SoundFrom.bind (sound_createOrFastforward stream pipelineGroup)
        fun _ later _ => induction

theorem sound_ensureAllStreamsReady :
    busGuarantee.SoundFrom (busHandler author) known EventBus.ensureAllStreamsReady := by
  refine Guarantee.SoundFrom.bind (sound_createGroupsOf streams) fun _ later _ => ?_
  refine Guarantee.SoundFrom.bind (sound_of_stays (EventBus.calls_allMissing streams) later)
    fun missing later _ => ?_
  exact sound_of_stays (EventBus.calls_ensureAll trivial missing) later

theorem sound_call (call : BusCall) :
    busGuarantee.SoundFrom (busHandler author) known (call.program codec) := by
  have discards : ∀ {α : Type} {program : Bus α}, program.Calls BusOp.Stays →
      busGuarantee.SoundFrom (busHandler author) known (program.bind fun _ => .ret ()) :=
    fun calls => (sound_of_stays calls known).bind fun _ later _ => Guarantee.soundFrom_ret later ()
  cases call with
  | publish stream event maxlen => exact discards (EventBus.calls_publish codec stream event maxlen)
  | consume stream group consumer count =>
      exact discards (EventBus.calls_consume codec trivial stream group consumer count)
  | acknowledge stream group ids => exact discards (EventBus.calls_acknowledge stream group ids)
  | reclaimStale stream group consumer minIdle =>
      exact discards (EventBus.calls_reclaimStale codec trivial stream group consumer minIdle)
  | createConsumerGroup stream group start =>
      exact sound_of_stays (EventBus.calls_createConsumerGroup stream group trivial) known
  | createGroups => exact sound_createGroupsOf streams
  | ensureAllStreamsReady => exact sound_ensureAllStreamsReady

theorem sound_runCalls (list : List BusCall) :
    busGuarantee.SoundFrom (busHandler author) known (runCalls codec list) := by
  induction list generalizing known with
  | nil => exact Guarantee.soundFrom_ret known ()
  | cons call rest induction =>
      exact Guarantee.SoundFrom.bind (Guarantee.SoundFrom.attempt (sound_call call))
        fun _ later _ => induction

theorem sound_runOutside (ops : List OutsideOp) :
    busGuarantee.SoundFrom outsideHandler known (runOutside ops) := by
  have keeps : ∀ op, busGuarantee.Keeps outsideHandler op := by
    intro op choice world kept
    cases op with
    | trim stream count => exact @kept_step _ .producer _ kept (.trimmed stream count)
    | loseGroup stream group => exact @kept_step _ .producer _ kept (.lost stream group)
  induction ops generalizing known with
  | nil => exact Guarantee.soundFrom_ret known ()
  | cons op rest induction =>
      exact Guarantee.SoundFrom.bind (Guarantee.soundFrom_of_keeps
        (Program.calls_perform (keeps op)) known) fun _ later _ => induction

end Programs

/-! ## Runs -/

section Runs

variable {ι : Type} [DecidableEq ι]

theorem kept_run (codec : Codec) (processes : ι → Process) (schedule : List (ι × BusChoice)) :
    busGuarantee.invariant ((processSystem codec processes).run schedule).world := by
  have start : busGuarantee.invariant (processSystem codec processes).world :=
    ⟨positions_empty, justified_nil⟩
  refine Guarantee.invariant_run start (fun i => ?_) schedule
  change busGuarantee.SoundFrom ((processes i).party codec).handler _
    ((processes i).party codec).program
  cases processes i with
  | calls list => exact sound_runCalls list
  | outside ops => exact sound_runOutside ops

/-- In every run, a group whose position has passed an entry that was appended after the group was
made has been delivered the entry, unless the entry was trimmed, the group was lost and made anew,
or a restart has found the agents' group with nothing pending and at the beginning and has moved it
to the end. -/
theorem EventBus.group_skips_nothing (codec : Codec) (processes : ι → Process)
    (schedule : List (ι × BusChoice)) {before after : List BusEvent} {author : Author}
    {stream group : String} {entry : FieldEntry} {held : Streams.Group String}
    (appended : ((processSystem codec processes).run schedule).world.history =
      before ++ .appended author stream entry :: after)
    (created : .groupCreated stream group ∈ before)
    (isGroup : (((processSystem codec processes).run schedule).world.streams stream).groups group =
      some held)
    (passed : entry.id ≤ held.lastDelivered) :
    .delivered stream group entry ∈ after ∨ .trimmed stream entry ∈ after ∨
      (.groupCreated stream group ∈ after ∧ .groupLost stream group ∈ before ++ after) ∨
      (.groupMoved stream group ∈ after ∧ group = defaultGroup ∧
        ∃ info, .inspected stream info ∈ before ++ after ∧ info.name = group ∧ info.pending = 0 ∧
          info.lastDeliveredId ∈ EventBus.beginningIds) := by
  obtain ⟨positions, warranted⟩ := kept_run codec processes schedule
  have others : ∀ event, (∀ author stream entry, event ≠ .appended author stream entry) →
      ∀ earlier, earlier <+: before ++ .appended author stream entry :: after → event ∈ earlier →
        event ∈ before ++ after := by
    intro event different earlier isPrefix member
    rcases List.mem_append.mp (isPrefix.subset member) with first | rest
    · exact List.mem_append_left _ first
    · rcases List.mem_cons.mp rest with same | last
      · exact absurd same (different author stream entry)
      · exact List.mem_append_right _ last
  have cause : ∀ event ∈ after, ∃ earlier, before ⊆ earlier ∧
      earlier <+: before ++ .appended author stream entry :: after ∧ Warranted earlier event := by
    intro event member
    obtain ⟨middle, later, rfl⟩ := List.append_of_mem member
    refine ⟨before ++ .appended author stream entry :: middle, List.subset_append_left _ _, ?_, ?_⟩
    · exact ⟨event :: later, by simp⟩
    · exact warranted _ event later (by rw [appended]; simp)
  rcases positions.passed before author stream entry after group held appended created isGroup
    passed with delivered | trimmed | made | moved
  · exact .inl delivered
  · exact .inr (.inl trimmed)
  · obtain ⟨earlier, within, isPrefix, lost⟩ := cause _ made
    exact .inr (.inr (.inl ⟨made, others _ (by simp) earlier isPrefix (lost (within created))⟩))
  · obtain ⟨earlier, -, isPrefix, isDefault, info, inspected, found⟩ := cause _ moved
    exact .inr (.inr (.inr ⟨moved, isDefault, info,
      others _ (by simp) earlier isPrefix inspected, found⟩))

end Runs

/-! ## A restart before the first read -/

/-- Fields without floats and nested values. -/
def plainCodec : Codec where
  runtime := Reference.decimalRuntime
  formatter := { float := fun _ => "", dumps := fun _ => "" }
  depth := 900

def decision : Dict String Value := [("msg_id", .str "decision-1")]

def decisionEntry : FieldEntry :=
  ⟨1, eventFields plainCodec.formatter decision "1970-01-01T00:00:00+00:00"⟩

/-- World after calls of one process, with nothing going wrong. -/
def afterCalls (list : List BusCall) : BusWorld :=
  ((processSystem plainCodec fun _ : Unit => .calls list).run (List.replicate 200 ((), {}))).world

/-- A first start, one decision, and a restart before anybody has read it. -/
def restartedEarly : BusWorld :=
  afterCalls [.createGroups, .publish "decisions" decision none, .createGroups]

/-- The restart jumps the agents' group over the decision. -/
theorem EventBus.restart_skips_decision :
    ∃ before after, restartedEarly.history =
        before ++ .appended .producer "decisions" decisionEntry :: after ∧
      .groupCreated "decisions" "workers" ∈ before ∧
      (∃ held, (restartedEarly.streams "decisions").groups "workers" = some held ∧
        decisionEntry.id ≤ held.lastDelivered) ∧
      .delivered "decisions" "workers" decisionEntry ∉ restartedEarly.history := by
  refine ⟨restartedEarly.history.take 44, restartedEarly.history.drop 45, ?_, ?_, ?_, ?_⟩
  · decide +kernel
  · decide +kernel
  · have passed : ((restartedEarly.streams "decisions").groups "workers").any
        fun held => decide (decisionEntry.id ≤ held.lastDelivered) := by decide +kernel
    obtain ⟨held, isGroup, within⟩ := (Option.any_eq_true _ _).mp passed
    exact ⟨held, isGroup, of_decide_eq_true within⟩
  · decide +kernel

def readDecision : List BusCall :=
  [.createConsumerGroup "decisions" "workers" .latest, .publish "decisions" decision none,
    .consume "decisions" "workers" "execution-engine" 10]

theorem EventBus.read_decision_delivered :
    ∃ after, (afterCalls readDecision).history =
        [.groupCreated "decisions" "workers"] ++
          .appended .producer "decisions" decisionEntry :: after ∧
      (.delivered "decisions" "workers" decisionEntry ∈ after ∨
        .trimmed "decisions" decisionEntry ∈ after ∨
        (.groupCreated "decisions" "workers" ∈ after ∧
          .groupLost "decisions" "workers" ∈ [.groupCreated "decisions" "workers"] ++ after) ∨
        (.groupMoved "decisions" "workers" ∈ after ∧ "workers" = defaultGroup ∧
          ∃ info, .inspected "decisions" info ∈ [.groupCreated "decisions" "workers"] ++ after ∧
            info.name = "workers" ∧ info.pending = 0 ∧
              info.lastDeliveredId ∈ EventBus.beginningIds)) := by
  have appended : (afterCalls readDecision).history = [.groupCreated "decisions" "workers"] ++
      .appended .producer "decisions" decisionEntry ::
        [.delivered "decisions" "workers" decisionEntry] := by decide +kernel
  have passed : (((afterCalls readDecision).streams "decisions").groups "workers").any
      fun held => decide (decisionEntry.id ≤ held.lastDelivered) := by decide +kernel
  obtain ⟨held, isGroup, within⟩ := (Option.any_eq_true _ _).mp passed
  refine ⟨_, appended, ?_⟩
  rw [afterCalls] at appended isGroup
  exact EventBus.group_skips_nothing plainCodec (fun _ : Unit => .calls readDecision)
    (List.replicate 200 ((), {})) appended (List.mem_singleton_self _) isGroup
    (of_decide_eq_true within)

end TradingControl.Events
