import TradingControl.Dashboard.StreamCursors
import TradingControl.Python.Reference

/-!
# What the WebSocket broadcaster skips

An entry that is appended between two calls of `xread` to a stream without an answer so far comes
before the next `"$"` and is never read.  An entry that cannot be read back raises before its cursor
moves, and is never handed on either.  Everything else is handed on exactly once and in order.
-/

namespace TradingControl.Dashboard

open Events Python Streams BroadcasterWorld

variable {codec : Codec} {world : BroadcasterWorld} {stream : String}

/-! ## Entries that are lost -/

/-- What holds in every run: the broadcaster has its six streams, and hands on what they held. -/
structure Sane (world : BroadcasterWorld) : Prop where
  keys : Dict.keys world.offsets = Dict.keys streamOffsets
  waiting : ∀ positions, world.waiting = some positions →
    positions.map Prod.fst = Dict.keys streamOffsets
  handed : ∀ stream message, (stream, message) ∈ world.handed →
    ∃ id ≤ (world.streams stream).lastGenerated, message.id = idText id

/-- An entry that a stream held and that no read from now on finds. -/
structure Lost (stream : String) (id : ℕ) (world : BroadcasterWorld) : Prop where
  generated : id ≤ (world.streams stream).lastGenerated
  offset : ∀ position, world.offsets.lookup stream = some (.after position) → id ≤ position
  waiting : ∀ positions position, world.waiting = some positions →
    (stream, position) ∈ positions → id ≤ position
  unhanded : ∀ message, (stream, message) ∈ world.handed → message.id ≠ idText id

theorem idText_of_decodes {entry : FieldEntry} {message : Message}
    (decodes : Decodes codec entry message) : message.id = idText entry.id := by
  obtain ⟨payload, -, rfl⟩ := decodes_iff.mp decodes
  rfl

theorem handed_handAnswer {answer : List (String × List FieldEntry)} {message : Message}
    (member : (stream, message) ∈ (handAnswer codec answer world).handed) :
    (stream, message) ∈ world.handed ∨
      ∃ entries entry, (stream, entries) ∈ answer ∧ entry ∈ entries ∧
        message.id = idText entry.id := by
  induction answer generalizing world with
  | nil => exact .inl member
  | cons first rest induction =>
      obtain ⟨name, entries⟩ := first
      obtain ⟨messages, sent, handed, read⟩ := handEntries_spec codec name entries world
      have own : (stream, message) ∈ (handEntries codec name entries world).2.handed →
          (stream, message) ∈ world.handed ∨
            ∃ entries' entry, (stream, entries') ∈ (name, entries) :: rest ∧ entry ∈ entries' ∧
              message.id = idText entry.id := by
        intro isHanded
        rw [handed] at isHanded
        rcases List.mem_append.mp isHanded with old | new
        · exact .inl old
        · obtain ⟨held, isHeld, same⟩ := List.mem_map.mp new
          obtain ⟨rfl, rfl⟩ := Prod.mk.inj same
          obtain ⟨entry, isEntry, decodes⟩ := read held isHeld
          exact .inr ⟨entries, entry, List.mem_cons_self, isEntry, idText_of_decodes decodes⟩
      rw [handAnswer] at member
      split at member
      · next after outcome =>
          rw [outcome] at own
          exact own member
      · next after outcome =>
          rw [outcome] at own
          rcases induction member with old | ⟨entries', entry, inRest, isEntry, isId⟩
          · have same : (after.advance name entries).handed = after.handed := by
              rw [advance]
              split <;> rfl
            exact own (same ▸ old)
          · exact .inr ⟨entries', entry, List.mem_cons_of_mem _ inRest, isEntry, isId⟩

theorem offset_handAnswer {answer : List (String × List FieldEntry)} {position : ℕ}
    (isOffset : (handAnswer codec answer world).offsets.lookup stream = some (.after position)) :
    world.offsets.lookup stream = some (.after position) ∨
      ∃ entries entry, (stream, entries) ∈ answer ∧ entry ∈ entries ∧ entry.id = position := by
  induction answer generalizing world with
  | nil => exact .inl isOffset
  | cons first rest induction =>
      obtain ⟨name, entries⟩ := first
      obtain ⟨messages, sent, handed, -⟩ := handEntries_spec codec name entries world
      have own : (handEntries codec name entries world).2.offsets = world.offsets := by
        rw [handed, handOn]
      rw [handAnswer] at isOffset
      split at isOffset
      · next after outcome =>
          rw [outcome] at own
          exact .inl (own ▸ isOffset)
      · next after outcome =>
          rw [outcome] at own
          rcases induction isOffset with before | ⟨entries', entry, inRest, isEntry, isId⟩
          · rw [advance] at before
            split at before
            · next last atEnd =>
                rw [Dict.lookup_set] at before
                split at before
                · next same =>
                    obtain rfl := same
                    obtain ⟨rfl⟩ := Offset.after.inj (Option.some.inj before)
                    exact .inr ⟨entries, last, List.mem_cons_self, List.mem_of_getLast? atEnd,
                      rfl⟩
                · exact .inl (own ▸ before)
            · exact .inl (own ▸ before)
          · exact .inr ⟨entries', entry, List.mem_cons_of_mem _ inRest, isEntry, isId⟩

theorem mem_entries_of_answer {positions : List (String × ℕ)} {entries : List FieldEntry}
    {entry : FieldEntry} (inAnswer : (stream, entries) ∈ world.answer positions)
    (isEntry : entry ∈ entries) :
    ∃ position, (stream, position) ∈ positions ∧ entry ∈ (world.streams stream).entries ∧
      position < entry.id := by
  obtain ⟨position, isRequest, rfl, -⟩ := mem_of_mem_xread inAnswer
  exact ⟨position, isRequest, Stream.mem_after.mp (List.mem_of_mem_take isEntry)⟩

theorem Sane.read {positions : List (String × ℕ)} (sane : Sane world)
    (requests : positions.map Prod.fst = Dict.keys streamOffsets) :
    Sane (world.read codec positions) := by
  rw [BroadcasterWorld.read]
  split
  · exact ⟨sane.keys, fun held waits => Option.some.inj waits ▸ requests, sane.handed⟩
  · have kept := kept_handAnswer codec (world.answer positions) { world with waiting := none }
    refine ⟨?_, fun held waits => ?_, fun stream message member => ?_⟩
    · rw [keys_handAnswer, sane.keys]
      rintro ⟨stream, entries⟩ member
      obtain ⟨position, isRequest, -⟩ := mem_of_mem_xread member
      have isKey : stream ∈ positions.map Prod.fst := List.mem_map_of_mem isRequest
      rw [requests, ← sane.keys] at isKey
      exact isKey
    · rw [kept.waiting] at waits
      cases waits
    · rw [kept.streams]
      rcases handed_handAnswer member with old | ⟨entries, entry, inAnswer, isEntry, isId⟩
      · exact sane.handed stream message old
      · obtain ⟨-, -, held, -⟩ := mem_entries_of_answer inAnswer isEntry
        exact ⟨entry.id, (world.streams stream).bounded entry held, isId⟩

theorem Lost.read {id : ℕ} {positions : List (String × ℕ)} (lost : Lost stream id world)
    (beyond : ∀ position, (stream, position) ∈ positions → id ≤ position) :
    Lost stream id (world.read codec positions) := by
  have later : ∀ entries entry, (stream, entries) ∈ world.answer positions → entry ∈ entries →
      id < entry.id := by
    intro entries entry inAnswer isEntry
    obtain ⟨position, isRequest, -, after⟩ := mem_entries_of_answer inAnswer isEntry
    exact (beyond position isRequest).trans_lt after
  rw [BroadcasterWorld.read]
  split
  · exact ⟨lost.generated, lost.offset, fun held position waits member =>
      beyond position (Option.some.inj waits ▸ member), lost.unhanded⟩
  · have kept := kept_handAnswer codec (world.answer positions) { world with waiting := none }
    refine ⟨?_, fun position isOffset => ?_, fun held position waits => ?_,
      fun message member => ?_⟩
    · rw [kept.streams]
      exact lost.generated
    · rcases offset_handAnswer isOffset with before | ⟨entries, entry, inAnswer, isEntry, rfl⟩
      · exact lost.offset position before
      · exact (later entries entry inAnswer isEntry).le
    · rw [kept.waiting] at waits
      cases waits
    · rcases handed_handAnswer member with old | ⟨entries, entry, inAnswer, isEntry, isId⟩
      · exact lost.unhanded message old
      · rw [isId]
        intro same
        have after := later entries entry inAnswer isEntry
        rw [idText_injective same] at after
        exact absurd after (lt_irrefl id)

theorem le_lastGenerated_add (world : BroadcasterWorld) (stream other : String) (gap : ℕ)
    (fields : List (String × String)) :
    (world.streams other).lastGenerated ≤
      ((world.add stream gap fields).streams other).lastGenerated := by
  by_cases same : other = stream
  · subst same
    rw [add_streams_self, Stream.append_lastGenerated]
    omega
  · rw [add_streams_of_ne _ _ _ same]

theorem Sane.add (sane : Sane world) (stream : String) (gap : ℕ) (fields : List (String × String)) :
    Sane (world.add stream gap fields) where
  keys := sane.keys
  waiting := sane.waiting
  handed other message member := by
    obtain ⟨id, within, isId⟩ := sane.handed other message member
    exact ⟨id, within.trans (le_lastGenerated_add world stream other gap fields), isId⟩

theorem Lost.add {id : ℕ} (lost : Lost stream id world) (other : String) (gap : ℕ)
    (fields : List (String × String)) : Lost stream id (world.add other gap fields) where
  generated := lost.generated.trans (le_lastGenerated_add world other stream gap fields)
  offset := lost.offset
  waiting := lost.waiting
  unhanded := lost.unhanded

theorem Sane.step (sane : Sane world) (event : BroadcasterEvent) :
    Sane (world.step codec event) := by
  cases event with
  | append stream gap fields =>
      simp only [BroadcasterWorld.step]
      cases waits : world.waiting with
      | none => exact sane.add stream gap fields
      | some positions =>
          exact (sane.add stream gap fields).read (sane.waiting positions waits)
  | poll =>
      simp only [BroadcasterWorld.step]
      cases world.waiting with
      | some positions => exact sane
      | none =>
          have polled : Sane { world with polled := true } :=
            ⟨sane.keys, sane.waiting, sane.handed⟩
          exact polled.read ((positions_keys world).trans sane.keys)
  | timeout => exact ⟨sane.keys, fun positions waits => (by cases waits), sane.handed⟩

theorem Lost.step {id : ℕ} (lost : Lost stream id world) (sane : Sane world)
    (event : BroadcasterEvent) : Lost stream id (world.step codec event) := by
  cases event with
  | append other gap fields =>
      simp only [BroadcasterWorld.step]
      cases waits : world.waiting with
      | none => exact lost.add other gap fields
      | some positions =>
          exact (lost.add other gap fields).read fun position =>
            lost.waiting positions position waits
  | poll =>
      simp only [BroadcasterWorld.step]
      cases world.waiting with
      | some positions => exact lost
      | none =>
          have polled : Lost stream id { world with polled := true } :=
            ⟨lost.generated, lost.offset, lost.waiting, lost.unhanded⟩
          refine polled.read fun position member => ?_
          obtain ⟨offset, isOffset, rfl⟩ := mem_positions.mp member
          cases offset with
          | latest => exact lost.generated
          | after held => exact lost.offset held (lookup_of_keys sane.keys isOffset)
  | timeout =>
      exact ⟨lost.generated, lost.offset, fun positions position waits => (by cases waits),
        lost.unhanded⟩

theorem sane_run (codec : Codec) (events : List BroadcasterEvent) : Sane (run codec events) := by
  induction events using List.reverseRecOn with
  | nil => exact ⟨rfl, fun positions waits => (nomatch waits), fun stream message member =>
      absurd member List.not_mem_nil⟩
  | append_singleton events event induction =>
      rw [run_concat]
      exact induction.step event

theorem Lost.run {id : ℕ} {earlier : List BroadcasterEvent}
    (lost : Lost stream id (BroadcasterWorld.run codec earlier)) (later : List BroadcasterEvent) :
    Lost stream id (BroadcasterWorld.run codec (earlier ++ later)) := by
  induction later using List.reverseRecOn with
  | nil => simpa using lost
  | append_singleton later event induction =>
      rw [← List.append_assoc, run_concat]
      exact induction.step (sane_run codec _) event

/-! ## Runs that skip an entry -/

theorem appended_read (codec : Codec) (world : BroadcasterWorld)
    (positions : List (String × ℕ)) :
    (world.read codec positions).appended = world.appended := by
  rw [BroadcasterWorld.read]
  split
  · rfl
  · exact (kept_handAnswer codec _ _).appended

theorem appended_step (codec : Codec) (world : BroadcasterWorld) (event : BroadcasterEvent) :
    world.appended ⊆ (world.step codec event).appended := by
  have added : ∀ stream gap fields, world.appended ⊆ (world.add stream gap fields).appended := by
    intro stream gap fields
    rw [BroadcasterWorld.add]
    dsimp only
    split
    · exact List.subset_append_left _ _
    · exact List.Subset.refl _
  cases event with
  | append stream gap fields =>
      simp only [BroadcasterWorld.step]
      cases world.waiting with
      | none => exact added stream gap fields
      | some positions =>
          rw [appended_read]
          exact added stream gap fields
  | poll =>
      simp only [BroadcasterWorld.step]
      cases world.waiting with
      | none =>
          rw [appended_read]
          exact List.Subset.refl _
      | some positions => exact List.Subset.refl _
  | timeout => exact List.Subset.refl _

theorem appended_run (codec : Codec) (earlier later : List BroadcasterEvent) :
    (run codec earlier).appended ⊆ (run codec (earlier ++ later)).appended := by
  induction later using List.reverseRecOn with
  | nil => simp
  | append_singleton later event induction =>
      rw [← List.append_assoc, run_concat]
      exact List.Subset.trans induction (appended_step codec _ event)

theorem mem_appendedTo {entry : FieldEntry} :
    entry ∈ world.appendedTo stream ↔ (stream, entry) ∈ world.appended := by
  simp [appendedTo]

theorem mem_handedFrom {message : Message} :
    message ∈ world.handedFrom stream ↔ (stream, message) ∈ world.handed := by
  simp [handedFrom]

theorem exists_of_forall₂ {entries : List FieldEntry} {messages : List Message}
    (decodes : List.Forall₂ (Decodes codec) entries messages) {entry : FieldEntry}
    (member : entry ∈ entries) : ∃ message ∈ messages, Decodes codec entry message := by
  induction decodes with
  | nil => cases member
  | cons first rest induction =>
      rcases List.mem_cons.mp member with rfl | later
      · exact ⟨_, List.mem_cons_self, first⟩
      · obtain ⟨message, isMessage, decodes⟩ := induction later
        exact ⟨message, List.mem_cons_of_mem _ isMessage, decodes⟩

theorem SkipsNothing.heard {events : List BroadcasterEvent} (skips : SkipsNothing codec events) :
    Heard codec events := by
  rintro before stream gap fields after rfl isKey polled
  obtain ⟨-, polls, handed⟩ := skips stream isKey
  obtain ⟨entry, isEntry⟩ : ∃ entry : FieldEntry, entry =
    ⟨((run codec before).streams stream).lastGenerated + 1 + gap, fields⟩ := ⟨_, rfl⟩
  have split : before ++ BroadcasterEvent.append stream gap fields :: after =
      (before ++ [.append stream gap fields]) ++ after := by simp
  -- the entry is appended, so its message is handed on in the end
  have appended : (stream, entry) ∈ ((run codec before).add stream gap fields).appended := by
    rw [← mem_appendedTo, appendedTo_add, if_pos ⟨rfl, polled⟩, isEntry]
    exact List.mem_append_right _ (List.mem_singleton_self _)
  have stepped : (stream, entry) ∈
      (run codec (before ++ [.append stream gap fields])).appended := by
    rw [run_concat]
    simp only [BroadcasterWorld.step]
    cases (run codec before).waiting with
    | none => exact appended
    | some positions =>
        dsimp only
        rw [appended_read]
        exact appended
  have isAppended : entry ∈ (run codec
      (before ++ .append stream gap fields :: after)).appendedTo stream := by
    rw [mem_appendedTo, split]
    exact appended_run codec _ after stepped
  obtain ⟨message, isHanded, decodes⟩ := exists_of_forall₂ handed isAppended
  obtain ⟨payload, isPayload, -⟩ := decodes_iff.mp decodes
  refine ⟨⟨payload, by rw [isEntry] at isPayload; exact isPayload⟩, ?_⟩
  by_contra unheard
  obtain ⟨idle, latest⟩ := not_or.mp unheard
  rw [not_not] at idle latest
  -- nothing has found the entry, and nothing will
  have sane := sane_run codec before
  have lost : Lost stream entry.id ((run codec before).add stream gap fields) := by
    refine ⟨?_, fun position isOffset => ?_, fun positions position waits => ?_,
      fun message member same => ?_⟩
    · rw [add_streams_self, isEntry, Stream.append_lastGenerated]
    · have isLatest : (run codec before).offsets.lookup stream = some (.after position) := isOffset
      rw [latest] at isLatest
      cases isLatest
    · have isWaiting : (run codec before).waiting = some positions := waits
      rw [idle] at isWaiting
      cases isWaiting
    · obtain ⟨id, within, isId⟩ := sane.handed stream message member
      have sameId : entry.id = id := idText_injective (same.symm.trans isId)
      rw [isEntry] at sameId
      dsimp only at sameId
      omega
  have run_eq : run codec (before ++ [.append stream gap fields]) =
      (run codec before).add stream gap fields := by
    rw [run_concat]
    simp only [BroadcasterWorld.step, idle]
  have forever := (run_eq ▸ lost : Lost stream entry.id
    (run codec (before ++ [.append stream gap fields]))).run (after ++ List.replicate polls .poll)
  rw [← List.append_assoc, ← split] at forever
  exact forever.unhanded message (mem_handedFrom.mp isHanded) (idText_of_decodes decodes)

/-- The loop skips nothing exactly when every entry is heard. -/
theorem skipsNothing_iff (codec : Codec) (events : List BroadcasterEvent) :
    SkipsNothing codec events ↔ Heard codec events :=
  ⟨SkipsNothing.heard, Heard.skipsNothing⟩

/-! ## A fill between two reads -/

def plainCodec : Codec where
  runtime := Reference.decimalRuntime
  formatter := { float := fun _ => "", dumps := fun _ => "" }
  depth := 900

/-- The first `xread` runs into its time limit, and then a fill arrives. -/
def fillBetweenReads : List BroadcasterEvent :=
  [.poll, .timeout, .append "executions" 0 [("type", "order_filled"), ("side", "buy")]]

/-- However often the loop polls, it does not find the fill. -/
theorem not_skipsNothing_fillBetweenReads : ¬SkipsNothing plainCodec fillBetweenReads := by
  intro skips
  obtain ⟨-, waits | moved⟩ := skips.heard [.poll, .timeout] "executions" 0 _ [] rfl
    (by decide) rfl
  · exact waits rfl
  · exact moved rfl

end TradingControl.Dashboard
