import TradingControl.Dashboard.StreamReads

/-!
# The cursors of the WebSocket broadcaster

Every stream has a cursor of its own, `"$"` until the stream has answered.  While entries of a
stream with that cursor only arrive inside an `xread`, and all entries can be read back, what was
handed on and what comes after the cursor are together what was appended.
-/

namespace TradingControl.Dashboard

open Events Python Streams BroadcasterWorld

variable {codec : Codec} {world : BroadcasterWorld} {stream : String}

/-- Of every registered stream, what was handed on are the first of the entries appended since the
first `xread`, each once and in order; a number of further polls hands all of them on. -/
def SkipsNothing (codec : Codec) (events : List BroadcasterEvent) : Prop :=
  ∀ stream ∈ Dict.keys streamOffsets,
    (∃ done rest, (run codec events).appendedTo stream = done ++ rest ∧
      List.Forall₂ (Decodes codec) done ((run codec events).handedFrom stream)) ∧
    ∃ polls, List.Forall₂ (Decodes codec) ((run codec events).appendedTo stream)
      ((run codec (events ++ List.replicate polls .poll)).handedFrom stream)

/-- Every entry that is appended to a registered stream after the first `xread` can be read back,
and arrives while an `xread` waits or when the offset of its stream is no longer `"$"`. -/
def Heard (codec : Codec) (events : List BroadcasterEvent) : Prop :=
  ∀ before stream gap fields after, events = before ++ .append stream gap fields :: after →
    stream ∈ Dict.keys streamOffsets → (run codec before).polled = true →
      (∃ payload, decodeRedisPayload codec fields = .ok payload) ∧
        ((run codec before).waiting ≠ none ∨
          (run codec before).offsets.lookup stream ≠ some .latest)

/-! ## What the loop keeps -/

/-- What was handed on and what comes after a position are what was appended. -/
structure Tracks (codec : Codec) (world : BroadcasterWorld) (stream : String)
    (position : ℕ) : Prop where
  reached : position ≤ (world.streams stream).lastGenerated
  split : ∃ done, world.appendedTo stream = done ++ (world.streams stream).after position ∧
    List.Forall₂ (Decodes codec) done (world.handedFrom stream)

/-- A stream without an answer so far has nothing to be handed on. -/
def Follows (codec : Codec) (world : BroadcasterWorld) (stream : String) : Offset → Prop
  | .latest => List.Forall₂ (Decodes codec) (world.appendedTo stream) (world.handedFrom stream)
  | .after id => Tracks codec world stream id

/-- The loop has missed nothing so far. -/
structure Following (codec : Codec) (world : BroadcasterWorld) : Prop where
  keys : Dict.keys world.offsets = Dict.keys streamOffsets
  follows : ∀ stream offset, world.offsets.lookup stream = some offset →
    Follows codec world stream offset
  readable : ∀ stream ∈ Dict.keys streamOffsets, ∀ entry ∈ world.appendedTo stream,
    ∃ message, Decodes codec entry message
  unpolled : world.polled = false →
    world.appended = [] ∧ world.waiting = none ∧ world.offsets = streamOffsets
  waiting : ∀ positions, world.waiting = some positions →
    positions = world.positions ∧ world.answer positions = []

/-- The loop is about to hand on what comes after some positions. -/
structure Opened (codec : Codec) (world : BroadcasterWorld)
    (positions : List (String × ℕ)) : Prop where
  polled : world.polled = true
  keys : Dict.keys world.offsets = Dict.keys streamOffsets
  requests : positions.map Prod.fst = Dict.keys streamOffsets
  tracks : ∀ request ∈ positions, Tracks codec world request.1 request.2
  offsets : ∀ request ∈ positions, world.offsets.lookup request.1 = some .latest ∨
    world.offsets.lookup request.1 = some (.after request.2)
  readable : ∀ stream ∈ Dict.keys streamOffsets, ∀ entry ∈ world.appendedTo stream,
    ∃ message, Decodes codec entry message

theorem positions_keys (world : BroadcasterWorld) :
    world.positions.map Prod.fst = Dict.keys world.offsets := by
  simp [positions, Dict.keys, Function.comp_def]

theorem mem_positions {position : ℕ} :
    (stream, position) ∈ world.positions ↔
      ∃ offset, (stream, offset) ∈ world.offsets ∧
        (world.streams stream).resolve offset = position := by
  rw [positions, List.mem_map]
  constructor
  · rintro ⟨⟨held, offset⟩, member, same⟩
    obtain ⟨rfl, rfl⟩ := Prod.mk.inj same
    exact ⟨offset, member, rfl⟩
  · rintro ⟨offset, member, rfl⟩
    exact ⟨(stream, offset), member, rfl⟩

theorem lookup_of_keys (keys : Dict.keys world.offsets = Dict.keys streamOffsets)
    {offset : Offset} (member : (stream, offset) ∈ world.offsets) :
    world.offsets.lookup stream = some offset :=
  Dict.lookup_of_mem (keys ▸ by decide) member

/-- Where a read starts, it has missed nothing. -/
theorem Following.tracks (following : Following codec world) {request : String × ℕ}
    (member : request ∈ world.positions) : Tracks codec world request.1 request.2 := by
  obtain ⟨stream, position⟩ := request
  obtain ⟨offset, isOffset, rfl⟩ := mem_positions.mp member
  have follows := following.follows stream offset (lookup_of_keys following.keys isOffset)
  cases offset with
  | latest => exact ⟨le_rfl, world.appendedTo stream, by simp [Stream.resolve], follows⟩
  | after id => exact follows

theorem Following.opened (following : Following codec world) (polled : world.polled = true) :
    Opened codec world world.positions where
  polled := polled
  keys := following.keys
  requests := (positions_keys world).trans following.keys
  tracks _ member := following.tracks member
  offsets request member := by
    obtain ⟨stream, position⟩ := request
    obtain ⟨offset, isOffset, rfl⟩ := mem_positions.mp member
    rw [lookup_of_keys following.keys isOffset]
    cases offset with
    | latest => exact .inl rfl
    | after id => exact .inr rfl
  readable := following.readable

theorem Opened.readable_positions {positions : List (String × ℕ)}
    (opened : Opened codec world positions) : Readable codec world.streams positions where
  distinct := opened.requests ▸ by decide
  other request member := by
    have isKey : request.1 ∈ Dict.keys streamOffsets :=
      opened.requests ▸ List.mem_map_of_mem member
    rintro isMarket
    rw [isMarket] at isKey
    exact absurd isKey (by decide)
  decodes request member entry after := by
    obtain ⟨-, done, split, -⟩ := opened.tracks request member
    have isKey : request.1 ∈ Dict.keys streamOffsets :=
      opened.requests ▸ List.mem_map_of_mem member
    refine opened.readable request.1 isKey entry ?_
    rw [split]
    exact List.mem_append_right _ after

theorem Tracks.advance {after : BroadcasterWorld} {position : ℕ}
    (tracks : Tracks codec world stream position) (kept : Kept world after)
    (advanced : Advanced codec world.streams world after stream position) :
    Tracks codec after stream
      (lastId position (((world.streams stream).after position).take 100)) := by
  obtain ⟨reached, done, split, handed⟩ := tracks
  obtain ⟨messages, decodes, isHanded⟩ := advanced.handed
  have sameAppended : after.appendedTo stream = world.appendedTo stream := by
    rw [appendedTo, appendedTo, kept.appended]
  refine ⟨?_, done ++ ((world.streams stream).after position).take 100, ?_, ?_⟩
  · rw [kept.streams]
    exact lastId_le reached 100
  · rw [kept.streams, List.append_assoc, take_append_after, sameAppended, split]
  · rw [isHanded]
    exact List.rel_append handed decodes

theorem keys_advance (stream : String) (entries : List FieldEntry)
    (isKey : stream ∈ Dict.keys world.offsets) :
    Dict.keys (world.advance stream entries).offsets = Dict.keys world.offsets := by
  rw [advance]
  split
  · exact Dict.keys_set_of_mem _ isKey
  · rfl

theorem keys_handAnswer (codec : Codec) (answer : List (String × List FieldEntry))
    (world : BroadcasterWorld) (within : ∀ read ∈ answer, read.1 ∈ Dict.keys world.offsets) :
    Dict.keys (handAnswer codec answer world).offsets = Dict.keys world.offsets := by
  induction answer generalizing world with
  | nil => rfl
  | cons first rest induction =>
      obtain ⟨stream, entries⟩ := first
      obtain ⟨messages, sent, handed, -⟩ := handEntries_spec codec stream entries world
      have own : (handEntries codec stream entries world).2.offsets = world.offsets := by
        rw [handed, handOn]
      rw [handAnswer]
      split
      · next after outcome =>
          rw [outcome] at own
          rw [own]
      · next after outcome =>
          rw [outcome] at own
          have isKey : stream ∈ Dict.keys after.offsets :=
            own ▸ within (stream, entries) List.mem_cons_self
          have moved : Dict.keys (after.advance stream entries).offsets =
              Dict.keys world.offsets := (keys_advance stream entries isKey).trans (own ▸ rfl)
          rw [induction _ fun read member => moved ▸ within read (List.mem_cons_of_mem _ member),
            moved]

/-- After an answer the loop has missed nothing. -/
theorem Opened.handAnswer {positions : List (String × ℕ)}
    (opened : Opened codec world positions) (idle : world.waiting = none) :
    Following codec (handAnswer codec (world.answer positions) world) := by
  obtain ⟨after, isAfter⟩ : ∃ after,
    after = BroadcasterWorld.handAnswer codec (world.answer positions) world := ⟨_, rfl⟩
  have kept : Kept world after := isAfter ▸ kept_handAnswer codec _ world
  have advanced := (handAnswer_xread opened.readable_positions world).1
  have within : ∀ read ∈ world.answer positions, read.1 ∈ Dict.keys world.offsets := by
    rintro ⟨stream, entries⟩ member
    obtain ⟨position, isRequest, -⟩ := mem_of_mem_xread member
    rw [opened.keys, ← opened.requests]
    exact List.mem_map_of_mem isRequest
  have keys : Dict.keys after.offsets = Dict.keys streamOffsets := by
    rw [isAfter, keys_handAnswer codec _ world within, opened.keys]
  have sameAppended : ∀ stream, after.appendedTo stream = world.appendedTo stream := by
    intro stream
    rw [appendedTo, appendedTo, kept.appended]
  rw [answer] at isAfter ⊢
  rw [← isAfter] at advanced ⊢
  refine ⟨keys, fun stream offset isOffset => ?_, fun stream isKey entry member => ?_,
    fun unpolled => ?_, fun positions waits => ?_⟩
  · have isKey : stream ∈ positions.map Prod.fst := by
      rw [opened.requests, ← keys]
      exact Dict.mem_keys_of_mem (Dict.mem_of_lookup isOffset)
    obtain ⟨⟨held, position⟩, isRequest, same⟩ := List.mem_map.mp isKey
    obtain rfl : held = stream := same
    have tracks := opened.tracks (held, position) isRequest
    have own := advanced (held, position) isRequest
    have offset_eq := own.offset
    rw [isOffset] at offset_eq
    dsimp only at offset_eq
    split at offset_eq
    · next isNil =>
        -- nothing was read, and the offset is the one before
        have unmoved := tracks.advance kept own
        rw [isNil, List.take_nil] at unmoved
        rcases opened.offsets (held, position) isRequest with latest | moved
        · rw [latest, Option.some.injEq] at offset_eq
          rw [offset_eq]
          obtain ⟨-, done, split, handed⟩ := unmoved
          rw [lastId, List.getLast?_nil, kept.streams, isNil, List.append_nil] at split
          rw [Follows, split]
          exact handed
        · rw [moved, Option.some.injEq] at offset_eq
          rw [offset_eq]
          exact unmoved
    · rw [Option.some.injEq] at offset_eq
      rw [offset_eq]
      exact tracks.advance kept own
  · exact opened.readable stream isKey entry (sameAppended stream ▸ member)
  · rw [kept.polled, opened.polled] at unpolled
    cases unpolled
  · rw [kept.waiting, idle] at waits
    cases waits

/-! ## Steps -/

section Steps

variable {gap : ℕ} {fields : List (String × String)} {other : String}

theorem appendedTo_add (world : BroadcasterWorld) (stream other : String) (gap : ℕ)
    (fields : List (String × String)) :
    (world.add stream gap fields).appendedTo other = world.appendedTo other ++
      if other = stream ∧ world.polled = true then
        [⟨(world.streams stream).lastGenerated + 1 + gap, fields⟩] else [] := by
  rw [appendedTo, appendedTo, add]
  by_cases polled : world.polled = true
  · by_cases same : stream = other
    · simp [polled, same, List.filter_append]
    · simp [polled, same, Ne.symm same, List.filter_append]
  · simp [polled]

theorem add_streams_self (world : BroadcasterWorld) (stream : String) (gap : ℕ)
    (fields : List (String × String)) : (world.add stream gap fields).streams stream =
      (world.streams stream).append gap fields :=
  Function.update_self _ _ _

theorem add_streams_of_ne (world : BroadcasterWorld) (gap : ℕ) (fields : List (String × String))
    (differs : other ≠ stream) :
    (world.add stream gap fields).streams other = world.streams other :=
  Function.update_of_ne differs _ _

/-- A position that has missed nothing does not miss an appended entry. -/
theorem Tracks.add {position : ℕ} (tracks : Tracks codec world other position)
    (polled : world.polled = true) : Tracks codec (world.add stream gap fields) other position := by
  obtain ⟨reached, done, split, handed⟩ := tracks
  by_cases same : other = stream
  · subst same
    refine ⟨?_, done, ?_, handed⟩
    · rw [add_streams_self, Stream.append_lastGenerated]
      omega
    · rw [appendedTo_add, if_pos ⟨rfl, polled⟩, add_streams_self, Stream.after_append reached,
        split, List.append_assoc]
  · refine ⟨?_, done, ?_, handed⟩
    · rwa [add_streams_of_ne _ _ _ same]
    · rw [appendedTo_add, if_neg fun both => same both.1, add_streams_of_ne _ _ _ same, split,
        List.append_nil]

/-- An appended entry does not matter to another stream. -/
theorem Follows.add_of_ne {offset : Offset} (follows : Follows codec world other offset)
    (differs : other ≠ stream) : Follows codec (world.add stream gap fields) other offset := by
  have sameAppended : (world.add stream gap fields).appendedTo other = world.appendedTo other := by
    rw [appendedTo_add, if_neg fun both => differs both.1, List.append_nil]
  cases offset with
  | latest =>
      rw [Follows, sameAppended]
      exact follows
  | after id =>
      obtain ⟨reached, done, split, handed⟩ := follows
      refine ⟨?_, done, ?_, handed⟩
      · rwa [add_streams_of_ne _ _ _ differs]
      · rw [sameAppended, add_streams_of_ne _ _ _ differs, split]

/-- Every entry that a registered stream has been appended can be read back. -/
theorem readable_add
    (before : ∀ stream ∈ Dict.keys streamOffsets, ∀ entry ∈ world.appendedTo stream,
      ∃ message, Decodes codec entry message)
    (new : stream ∈ Dict.keys streamOffsets → world.polled = true →
      ∃ payload, decodeRedisPayload codec fields = .ok payload) :
    ∀ other ∈ Dict.keys streamOffsets,
      ∀ entry ∈ (world.add stream gap fields).appendedTo other,
        ∃ message, Decodes codec entry message := by
  intro other isKey entry member
  rw [appendedTo_add] at member
  rcases List.mem_append.mp member with old | added
  · exact before other isKey entry old
  · split at added
    · next both =>
        obtain ⟨rfl, polled⟩ := both
        obtain rfl := List.mem_singleton.mp added
        obtain ⟨payload, isPayload⟩ := new isKey polled
        exact ⟨_, decodes_iff.mpr ⟨payload, isPayload, rfl⟩⟩
    · cases added

/-- An `xread` that answers misses nothing, and one that waits has missed nothing. -/
theorem Opened.read {positions : List (String × ℕ)} (opened : Opened codec world positions)
    (waits : world.answer positions = [] →
      Following codec { world with waiting := some positions }) :
    Following codec (world.read codec positions) := by
  rw [BroadcasterWorld.read]
  split
  · next isNil => exact waits isNil
  · have idle : Opened codec { world with waiting := none } positions :=
      ⟨opened.polled, opened.keys, opened.requests,
        fun request member => ⟨(opened.tracks request member).reached,
          (opened.tracks request member).split⟩,
        opened.offsets, opened.readable⟩
    exact idle.handAnswer rfl

/-- What an event has to meet for the loop not to miss anything. -/
def HeardNow (codec : Codec) (world : BroadcasterWorld) : BroadcasterEvent → Prop
  | .append stream _ fields => stream ∈ Dict.keys streamOffsets → world.polled = true →
      (∃ payload, decodeRedisPayload codec fields = .ok payload) ∧
        (world.waiting ≠ none ∨ world.offsets.lookup stream ≠ some .latest)
  | _ => True

/-- Another state of the loop, with the same offsets on the same streams. -/
theorem Following.of_same {after : BroadcasterWorld} (following : Following codec world)
    (streams : after.streams = world.streams) (offsets : after.offsets = world.offsets)
    (appended : after.appended = world.appended) (handed : after.handed = world.handed)
    (unpolled : after.polled = false →
      after.appended = [] ∧ after.waiting = none ∧ after.offsets = streamOffsets)
    (waiting : ∀ positions, after.waiting = some positions →
      positions = after.positions ∧ after.answer positions = []) : Following codec after where
  keys := offsets ▸ following.keys
  follows stream offset isOffset := by
    have follows := following.follows stream offset (offsets ▸ isOffset)
    have sameAppended : after.appendedTo stream = world.appendedTo stream := by
      rw [appendedTo, appendedTo, appended]
    have sameHanded : after.handedFrom stream = world.handedFrom stream := by
      rw [handedFrom, handedFrom, handed]
    cases offset with
    | latest =>
        rw [Follows, sameAppended, sameHanded]
        exact follows
    | after id =>
        obtain ⟨reached, done, split, decodes⟩ := follows
        exact ⟨streams ▸ reached, done, by rw [sameAppended, streams, split],
          sameHanded ▸ decodes⟩
  readable stream isKey entry member := by
    refine following.readable stream isKey entry ?_
    rw [appendedTo] at member ⊢
    rwa [appended] at member
  unpolled := unpolled
  waiting := waiting

theorem Following.timeout (following : Following codec world) :
    Following codec { world with waiting := none } :=
  following.of_same rfl rfl rfl rfl
    (fun unpolled => ⟨(following.unpolled unpolled).1, rfl, (following.unpolled unpolled).2.2⟩)
    fun positions waits => by cases waits

theorem Following.poll (following : Following codec world) :
    Following codec (step codec world .poll) := by
  simp only [step]
  cases waits : world.waiting with
  | some positions => exact following
  | none =>
      have polled : Following codec { world with polled := true } :=
        following.of_same rfl rfl rfl rfl (fun unpolled => by cases unpolled)
          fun positions isWaiting => by rw [waits] at isWaiting; cases isWaiting
      refine (polled.opened rfl).read fun isNil => ?_
      exact polled.of_same rfl rfl rfl rfl (fun unpolled => by cases unpolled)
        fun positions isWaiting => by
          obtain rfl := Option.some.inj isWaiting
          exact ⟨rfl, isNil⟩

/-- An entry that arrives between two calls of `xread`. -/
theorem Following.add (following : Following codec world) (idle : world.waiting = none)
    (heard : HeardNow codec world (.append stream gap fields)) :
    Following codec (world.add stream gap fields) where
  keys := following.keys
  follows other offset isOffset := by
    have follows := following.follows other offset isOffset
    have isKey : other ∈ Dict.keys streamOffsets :=
      following.keys ▸ Dict.mem_keys_of_mem (Dict.mem_of_lookup isOffset)
    by_cases differs : other = stream
    · subst differs
      by_cases polled : world.polled = true
      · cases offset with
        | latest =>
            rcases (heard isKey polled).2 with waits | moved
            · exact absurd idle waits
            · exact absurd isOffset moved
        | after id => exact Tracks.add follows polled
      · obtain ⟨-, -, offsets⟩ := following.unpolled (by simpa using polled)
        have latest : offset = .latest := by
          have member : (other, offset) ∈ world.offsets := Dict.mem_of_lookup isOffset
          rw [offsets] at member
          have all : ∀ item ∈ streamOffsets, item.2 = .latest := by decide
          exact all (other, offset) member
        subst latest
        rw [Follows, appendedTo_add, if_neg fun both => polled both.2, List.append_nil]
        exact follows
    · exact follows.add_of_ne differs
  readable := readable_add following.readable fun isKey polled => (heard isKey polled).1
  unpolled unpolled := by
    obtain ⟨appended, waiting, offsets⟩ := following.unpolled unpolled
    have isUnpolled : world.polled = false := unpolled
    exact ⟨by simp [BroadcasterWorld.add, isUnpolled, appended], waiting, offsets⟩
  waiting positions waits := by
    have isWaiting : world.waiting = some positions := waits
    rw [idle] at isWaiting
    cases isWaiting

/-- An entry that arrives while an `xread` waits. -/
theorem Following.wake (following : Following codec world) {positions : List (String × ℕ)}
    (waits : world.waiting = some positions)
    (heard : HeardNow codec world (.append stream gap fields)) :
    Following codec ((world.add stream gap fields).read codec positions) := by
  obtain ⟨rfl, quiet⟩ := following.waiting positions waits
  have polled : world.polled = true := by
    by_contra unpolled
    rw [(following.unpolled (by simpa using unpolled)).2.1] at waits
    cases waits
  have before := following.opened polled
  have opened : Opened codec (world.add stream gap fields) world.positions :=
    ⟨polled, before.keys, before.requests,
      fun request member => (before.tracks request member).add polled, before.offsets,
      readable_add following.readable fun isKey polled => (heard isKey polled).1⟩
  refine opened.read fun isNil => ?_
  -- nothing was read, so the entry belongs to none of the streams
  have elsewhere : ∀ request ∈ world.positions, request.1 ≠ stream := by
    rintro request member rfl
    have none := (xread_eq_nil_iff (by decide)).mp isNil request member
    rw [add_streams_self, Stream.after_append (before.tracks request member).reached] at none
    simp at none
  have elsewhere_key : ∀ other offset, (other, offset) ∈ world.offsets → other ≠ stream :=
    fun other offset member => elsewhere (other, _) (mem_positions.mpr ⟨offset, member, rfl⟩)
  refine ⟨following.keys, fun other offset isOffset => ?_, opened.readable,
    fun unpolled => ?_, fun positions isWaiting => ?_⟩
  · have differs := elsewhere_key other offset (Dict.mem_of_lookup isOffset)
    have follows : Follows codec (world.add stream gap fields) other offset :=
      (following.follows other offset isOffset).add_of_ne differs
    cases offset with
    | latest => exact follows
    | after id => exact ⟨follows.reached, follows.split⟩
  · have isUnpolled : world.polled = false := unpolled
    rw [polled] at isUnpolled
    cases isUnpolled
  · obtain rfl := Option.some.inj isWaiting
    refine ⟨List.map_congr_left fun item member => ?_, isNil⟩
    have differs := elsewhere_key item.1 item.2 member
    exact congrArg (fun held => (item.1, Stream.resolve held item.2))
      (add_streams_of_ne world gap fields differs).symm

theorem Following.step (following : Following codec world) {event : BroadcasterEvent}
    (heard : HeardNow codec world event) : Following codec (world.step codec event) := by
  cases event with
  | append stream gap fields =>
      simp only [BroadcasterWorld.step]
      cases waits : world.waiting with
      | none => exact following.add waits heard
      | some positions => exact following.wake waits heard
  | poll => exact following.poll
  | timeout => exact following.timeout

end Steps

/-! ## Runs that miss nothing -/

theorem following_start (codec : Codec) : Following codec {} where
  keys := rfl
  follows stream offset isOffset := by
    have member : (stream, offset) ∈ streamOffsets := Dict.mem_of_lookup isOffset
    have latest : ∀ item ∈ streamOffsets, item.2 = .latest := by decide
    obtain rfl : offset = .latest := latest (stream, offset) member
    exact .nil
  readable := by simp [appendedTo]
  unpolled _ := ⟨rfl, rfl, rfl⟩
  waiting positions waits := by cases waits

theorem run_concat (codec : Codec) (events : List BroadcasterEvent) (event : BroadcasterEvent) :
    run codec (events ++ [event]) = (run codec events).step codec event := by
  rw [run_append]
  rfl

theorem Heard.following {events : List BroadcasterEvent} (heard : Heard codec events) :
    Following codec (run codec events) := by
  induction events using List.reverseRecOn with
  | nil => exact following_start codec
  | append_singleton events event induction =>
      have earlier : Heard codec events := fun before stream gap fields after split =>
        heard before stream gap fields (after ++ [event]) (by rw [split]; simp)
      rw [run_concat]
      refine (induction earlier).step ?_
      cases event with
      | append stream gap fields => exact heard events stream gap fields [] rfl
      | poll => trivial
      | timeout => trivial

/-- A poll reads a stream that has something to be read. -/
theorem Following.poll_advanced (following : Following codec world) {id : ℕ}
    (isOffset : world.offsets.lookup stream = some (.after id))
    (pending : (world.streams stream).after id ≠ []) :
    Kept { world with polled := true, waiting := none } (world.step codec .poll) ∧
      Advanced codec world.streams world (world.step codec .poll) stream id := by
  have isRequest : (stream, id) ∈ world.positions :=
    mem_positions.mpr ⟨_, Dict.mem_of_lookup isOffset, rfl⟩
  have busy : world.answer world.positions ≠ [] := fun isNil =>
    pending ((xread_eq_nil_iff (by decide)).mp isNil (stream, id) isRequest)
  have idle : world.waiting = none := by
    cases waits : world.waiting with
    | none => rfl
    | some positions =>
        obtain ⟨rfl, quiet⟩ := following.waiting positions waits
        exact absurd quiet busy
  have polled : Following codec { world with polled := true } :=
    following.of_same rfl rfl rfl rfl (fun unpolled => by cases unpolled)
      fun positions isWaiting => by rw [idle] at isWaiting; cases isWaiting
  have step_eq : world.step codec .poll = handAnswer codec
      (xread world.streams 100 world.positions) { world with polled := true, waiting := none } := by
    simp only [BroadcasterWorld.step, idle]
    rw [BroadcasterWorld.read]
    exact if_neg busy
  have readable := (polled.opened rfl).readable_positions
  have advanced := (handAnswer_xread readable { world with polled := true, waiting := none }).1
    (stream, id) isRequest
  rw [step_eq]
  exact ⟨kept_handAnswer codec _ _, ⟨advanced.handed, advanced.offset⟩⟩

theorem Following.hands_on {offset : Offset} (following : Following codec world)
    (isOffset : world.offsets.lookup stream = some offset) (bound : ℕ)
    (few : ∀ id, offset = .after id → ((world.streams stream).after id).length ≤ bound) :
    ∃ polls, List.Forall₂ (Decodes codec) (world.appendedTo stream)
      (((List.replicate polls .poll).foldl (BroadcasterWorld.step codec) world).handedFrom
        stream) := by
  induction bound generalizing world offset with
  | zero =>
      have follows := following.follows stream offset isOffset
      cases offset with
      | latest => exact ⟨0, follows⟩
      | after id =>
          have isNil := List.length_eq_zero_iff.mp (Nat.le_zero.mp (few id rfl))
          obtain ⟨-, done, split, handed⟩ := follows
          rw [isNil, List.append_nil] at split
          exact ⟨0, split ▸ handed⟩
  | succ bound induction =>
      have follows := following.follows stream offset isOffset
      cases offset with
      | latest => exact ⟨0, follows⟩
      | after id =>
          by_cases pending : (world.streams stream).after id = []
          · obtain ⟨-, done, split, handed⟩ := follows
            rw [pending, List.append_nil] at split
            exact ⟨0, split ▸ handed⟩
          · obtain ⟨kept, advanced⟩ := following.poll_advanced isOffset pending
            have moved := advanced.offset
            rw [if_neg pending] at moved
            have shorter : ∀ later, Offset.after (lastId id
                (((world.streams stream).after id).take 100)) = .after later →
                (((world.step codec .poll).streams stream).after later).length ≤ bound := by
              rintro _ ⟨⟩
              have lengths := congrArg List.length
                (take_append_after (world.streams stream) id 100)
              rw [List.length_append, List.length_take] at lengths
              have some := List.length_pos_iff.mpr pending
              have most := few id rfl
              rw [kept.streams]
              dsimp only
              omega
            obtain ⟨polls, handed⟩ := induction following.poll moved shorter
            refine ⟨polls + 1, ?_⟩
            have sameAppended : (world.step codec .poll).appendedTo stream =
                world.appendedTo stream := by
              rw [appendedTo, appendedTo, kept.appended]
            rw [← sameAppended]
            exact handed

theorem Heard.skipsNothing {events : List BroadcasterEvent} (heard : Heard codec events) :
    SkipsNothing codec events := by
  intro stream isKey
  have following := heard.following
  obtain ⟨⟨held, offset⟩, member, same⟩ := List.mem_map.mp
    (following.keys ▸ isKey : stream ∈ Dict.keys (run codec events).offsets)
  obtain rfl : held = stream := same
  have isOffset := lookup_of_keys following.keys member
  constructor
  · have follows := following.follows held offset isOffset
    cases offset with
    | latest => exact ⟨_, [], (List.append_nil _).symm, follows⟩
    | after id =>
        obtain ⟨-, done, split, handed⟩ := follows
        exact ⟨done, _, split, handed⟩
  · obtain ⟨polls, handed⟩ := following.hands_on isOffset
      (((run codec events).streams held).entries.length) fun id _ => List.length_filter_le _ _
    exact ⟨polls, by rw [run_append]; exact handed⟩

end TradingControl.Dashboard
