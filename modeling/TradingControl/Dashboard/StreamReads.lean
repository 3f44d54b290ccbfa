import TradingControl.Events.EventBus
import TradingControl.Python.Operators
import TradingControl.Streams.Read

/-!
# WebSocket broadcaster

The loop that reads six streams for the dashboard: each stream has an offset, `"$"` at first, and
after an answer the last id that was handed on.  Entries arrive whenever they like, while an `xread`
waits or between two of them.
-/

namespace TradingControl.Dashboard

open Events Python Streams

/-! ## Messages for the frontend -/

/-- `_decode_redis_payload`, which reads the fields of an entry back as the bus does. -/
def decodeRedisPayload (codec : Codec) (fields : List (String × String)) :
    Except Raised (Dict String Value) :=
  decodeFields codec fields

/-- `payload.get(key, default)`. -/
def getOr (payload : Dict String Value) (key : String) (default : Value) : Value :=
  (payload.lookup key).getD default

/-- `_HIDDEN_NOTIFICATION_TYPE_PREFIXES`. -/
def hiddenNotificationTypePrefixes : List String := ["stream:", "decision.", "signal."]

/-- `_HIDDEN_NOTIFICATION_STREAM_SOURCES`. -/
def hiddenNotificationStreamSources : List String := ["agent_logs", "decisions", "signals"]

/-- `str(payload.get(first) or payload.get(second) or "")`. -/
def eitherText (runtime : Runtime) (payload : Dict String Value) (first second : String) : String :=
  runtime.str (Value.orElse (payload.lookup first) (Value.orElse (payload.lookup second) (.str "")))

/-- `_is_displayable_notification_payload`. -/
def isDisplayableNotificationPayload (runtime : Runtime) (payload : Dict String Value) : Bool :=
  let notificationType := lower (eitherText runtime payload "notification_type" "type")
  let streamSource := lower (eitherText runtime payload "stream_source" "source")
  let message := runtime.str (Value.orElse (payload.lookup "message")
    (Value.orElse (payload.lookup "summary")
      (Value.orElse (payload.lookup "title") (.str ""))))
  if strip message = "" || notificationType = "" || notificationType = "event" then false
  else if hiddenNotificationTypePrefixes.any (startsWith notificationType) then false
  else if hiddenNotificationStreamSources.contains streamSource &&
      !startsWith notificationType "trade." then false
  else true

/-- The stream and the id that every message for the frontend begins with. -/
def base (stream msgId : String) : Dict String Value :=
  [("stream", .str stream), ("msg_id", .str msgId)]

/-- `{**base, **payload}`. -/
def passThrough (stream msgId : String) (payload : Dict String Value) : Dict String Value :=
  payload.foldl (fun outbound (key, value) => Dict.set key value outbound) (base stream msgId)

/-- The message about an execution; only a fill has one. -/
def tradeNotification (runtime : Runtime) (stream msgId : String) (payload : Dict String Value) :
    Option (Dict String Value) :=
  let eventType := lower (runtime.str (getOr payload "type" (.str "")))
  let side := lower (runtime.str (getOr payload "side" (.str "")))
  if eventType = "order_filled" && (side = "buy" || side = "sell") then
    some (base stream msgId ++
      [("type", .str "trade_notification"), ("symbol", getOr payload "symbol" .none),
        ("side", .str side), ("qty", getOr payload "qty" .none),
        ("fill_price", getOr payload "fill_price" .none), ("pnl", getOr payload "pnl" (.int 0)),
        ("order_id", getOr payload "order_id" .none), ("trace_id", getOr payload "trace_id" .none),
        ("filled_at", getOr payload "filled_at" .none), ("source", getOr payload "source" .none)])
  else none

/-- What a market event is about: its payload, read from a text where it is one. -/
def rawPayload (codec : Codec) (payload : Dict String Value) : Except Raised Value :=
  match getOr payload "payload" (.dict payload) with
  | .str text =>
      match Json.loads codec.runtime codec.depth text with
      | .ok decoded => .ok decoded
      | .error .jsonDecodeError | .error .typeError => .ok (.dict payload)
      | .error error => .error error
  | raw => .ok raw

/-- The message about a market event that names a symbol. -/
def priceUpdate (stream msgId : String) (payload : Dict String Value) :
    Value → Option (Dict String Value)
  | .dict raw =>
      if (getOr raw "symbol" .none).truthy then
        some (base stream msgId ++
          [("type", .str "price_update"), ("symbol", getOr raw "symbol" .none),
            ("price", getOr raw "price" .none), ("change", getOr raw "change" (.int 0)),
            ("pct", getOr raw "pct" (.int 0)), ("ts", getOr raw "ts" .none),
            ("trace_id", getOr raw "trace_id" .none),
            ("timestamp", getOr payload "timestamp" .none)])
      else none
  | _ => none

/-- `_transform_stream_message`: nothing for what the frontend is not shown. -/
def transformStreamMessage (codec : Codec) (stream msgId : String) (payload : Dict String Value) :
    Except Raised (Option (Dict String Value)) :=
  if stream = "executions" then .ok (tradeNotification codec.runtime stream msgId payload)
  else if stream = "agent_logs" then .ok none
  else if stream = "notifications" then
    .ok (if isDisplayableNotificationPayload codec.runtime payload then
      some (passThrough stream msgId payload) else none)
  else if stream = "market_events" then
    (rawPayload codec payload).map (priceUpdate stream msgId payload)
  else .ok (some (passThrough stream msgId payload))

theorem transformStreamMessage_ne_error (codec : Codec) {stream : String}
    (other : stream ≠ "market_events") (msgId : String) (payload : Dict String Value) :
    ∃ outbound, transformStreamMessage codec stream msgId payload = .ok outbound := by
  simp only [transformStreamMessage, if_neg other]
  split_ifs <;> exact ⟨_, rfl⟩

/-! ## Loop -/

/-- `_stream_offsets`, as the broadcaster is built. -/
def streamOffsets : Dict String Offset :=
  [("signals", .latest), ("executions", .latest), ("risk_alerts", .latest),
    ("learning_events", .latest), ("agent_logs", .latest), ("notifications", .latest)]

/-- The streams, the broadcaster on them, and what has happened. -/
structure BroadcasterWorld where
  streams : String → FieldStream := fun _ => Streams.Stream.empty
  offsets : Dict String Offset := streamOffsets
  /-- The positions of an `xread` that waits for entries. -/
  waiting : Option (List (String × ℕ)) := none
  /-- The loop has called `xread`. -/
  polled : Bool := false
  /-- Entries appended since the first `xread`. -/
  appended : List (String × FieldEntry) := []
  /-- Messages handed to `_transform_stream_message`, with their streams. -/
  handed : List (String × Message) := []
  /-- Messages given to `broadcast`. -/
  sent : List (Dict String Value) := []

/-- Something that happens to the broadcaster. -/
inductive BroadcasterEvent where
  /-- `XADD` by anyone. -/
  | append (stream : String) (gap : ℕ) (fields : List (String × String))
  /-- The loop calls `xread`; while one waits it does not. -/
  | poll
  /-- An `xread` that waits runs into its time limit. -/
  | timeout

namespace BroadcasterWorld

def handEntries (codec : Codec) (stream : String) :
    List FieldEntry → BroadcasterWorld → Except Raised Unit × BroadcasterWorld
  | [], world => (.ok (), world)
  | entry :: rest, world =>
      match decodeRedisPayload codec entry.data with
      | .error error => (.error error, world)
      | .ok payload =>
          let handed :=
            { world with handed := world.handed ++ [(stream, ⟨idText entry.id, payload⟩)] }
          match transformStreamMessage codec stream (idText entry.id) payload with
          | .error error => (.error error, handed)
          | .ok none => handEntries codec stream rest handed
          | .ok (some outbound) =>
              handEntries codec stream rest { handed with sent := handed.sent ++ [outbound] }

/-- The offset of a stream after its entries were handed on. -/
def advance (world : BroadcasterWorld) (stream : String) (entries : List FieldEntry) :
    BroadcasterWorld :=
  match entries.getLast? with
  | some last => { world with offsets := Dict.set stream (.after last.id) world.offsets }
  | none => world

/-- One answer of `xread`, stream by stream.  An exception ends the work on it, and the offset of
the stream stays as it was. -/
def handAnswer (codec : Codec) :
    List (String × List FieldEntry) → BroadcasterWorld → BroadcasterWorld
  | [], world => world
  | (stream, entries) :: rest, world =>
      match handEntries codec stream entries world with
      | (.error _, after) => after
      | (.ok _, after) => handAnswer codec rest (after.advance stream entries)

/-- What `xread` finds after some positions. -/
def answer (world : BroadcasterWorld) (positions : List (String × ℕ)) :
    List (String × List FieldEntry) :=
  xread world.streams 100 positions

/-- The positions that the offsets mean now. -/
def positions (world : BroadcasterWorld) : List (String × ℕ) :=
  world.offsets.map fun (stream, offset) => (stream, (world.streams stream).resolve offset)

/-- `XADD`. -/
def add (world : BroadcasterWorld) (stream : String) (gap : ℕ)
    (fields : List (String × String)) : BroadcasterWorld :=
  let later := (world.streams stream).append gap fields
  { world with
    streams := Function.update world.streams stream later
    appended :=
      if world.polled then world.appended ++ [(stream, ⟨later.lastGenerated, fields⟩)]
      else world.appended }

/-- An `xread` with these positions answers, or waits. -/
def read (codec : Codec) (world : BroadcasterWorld) (positions : List (String × ℕ)) :
    BroadcasterWorld :=
  if world.answer positions = [] then { world with waiting := some positions }
  else handAnswer codec (world.answer positions) { world with waiting := none }

def step (codec : Codec) (world : BroadcasterWorld) : BroadcasterEvent → BroadcasterWorld
  | .append stream gap fields =>
      match world.waiting with
      | none => world.add stream gap fields
      | some positions => (world.add stream gap fields).read codec positions
  | .poll =>
      match world.waiting with
      | none => { world with polled := true }.read codec world.positions
      | some _ => world
  | .timeout => { world with waiting := none }

def run (codec : Codec) (events : List BroadcasterEvent) : BroadcasterWorld :=
  events.foldl (step codec) {}

theorem run_append (codec : Codec) (earlier later : List BroadcasterEvent) :
    run codec (earlier ++ later) = later.foldl (step codec) (run codec earlier) :=
  List.foldl_append

end BroadcasterWorld

end TradingControl.Dashboard

/-!
# What an answer hands on

Of an answer the entries of each stream are handed on in order, and the offset of the stream moves
to the last of them.  An entry that cannot be read back ends the work on the answer.
-/

namespace TradingControl.Dashboard

open Events Python Streams

variable {codec : Codec} {world : BroadcasterWorld} {stream : String}

/-- The message that an entry is read back into. -/
def Decodes (codec : Codec) (entry : FieldEntry) (message : Message) : Prop :=
  decodeEntry codec entry = .ok message

theorem decodes_iff {entry : FieldEntry} {message : Message} :
    Decodes codec entry message ↔ ∃ payload, decodeRedisPayload codec entry.data = .ok payload ∧
      message = ⟨idText entry.id, payload⟩ := by
  rw [Decodes, decodeEntry, decodeRedisPayload, bind_eq_ok]
  constructor
  · rintro ⟨payload, isPayload, same⟩
    exact ⟨payload, isPayload, (Except.ok.inj same).symm⟩
  · rintro ⟨payload, isPayload, rfl⟩
    exact ⟨payload, isPayload, rfl⟩

namespace BroadcasterWorld

/-- Entries appended to a stream since the first `xread`. -/
def appendedTo (world : BroadcasterWorld) (stream : String) : List FieldEntry :=
  (world.appended.filter fun appended => appended.1 = stream).map Prod.snd

def handedFrom (world : BroadcasterWorld) (stream : String) : List Message :=
  (world.handed.filter fun handed => handed.1 = stream).map Prod.snd

end BroadcasterWorld

open BroadcasterWorld

/-! ## Handing entries on -/

def BroadcasterWorld.handOn (world : BroadcasterWorld) (stream : String) (messages : List Message)
    (sent : List (Dict String Value)) : BroadcasterWorld :=
  { world with
    handed := world.handed ++ messages.map (Prod.mk stream)
    sent := sent }

@[simp] theorem handOn_handOn (world : BroadcasterWorld) (stream : String)
    (first second : List Message) (middle sent : List (Dict String Value)) :
    (world.handOn stream first middle).handOn stream second sent =
      world.handOn stream (first ++ second) sent := by
  simp [handOn]

@[simp] theorem handedFrom_handOn (world : BroadcasterWorld) (stream other : String)
    (messages : List Message) (sent : List (Dict String Value)) :
    (world.handOn stream messages sent).handedFrom other =
      world.handedFrom other ++ if other = stream then messages else [] := by
  rw [handedFrom, handedFrom, handOn, List.filter_append, List.map_append]
  congr 1
  by_cases same : other = stream
  · subst same
    simp [List.filter_map, Function.comp_def]
  · simp [List.filter_map, Function.comp_def, same, Ne.symm same]

theorem handEntries_cons (codec : Codec) (stream : String) (entry : FieldEntry)
    (rest : List FieldEntry) (world : BroadcasterWorld) {payload : Dict String Value}
    (isPayload : decodeRedisPayload codec entry.data = .ok payload)
    {outbound : Option (Dict String Value)}
    (transformed : transformStreamMessage codec stream (idText entry.id) payload = .ok outbound) :
    handEntries codec stream (entry :: rest) world = handEntries codec stream rest
      (world.handOn stream [⟨idText entry.id, payload⟩] (world.sent ++ outbound.toList)) := by
  simp only [handEntries, isPayload, transformed]
  cases outbound with
  | none => simp [handOn]
  | some outbound => simp [handOn]

theorem handEntries_of_decodes (other : stream ≠ "market_events") {entries : List FieldEntry}
    {messages : List Message} (decodes : List.Forall₂ (Decodes codec) entries messages)
    (world : BroadcasterWorld) :
    ∃ sent, handEntries codec stream entries world =
      (.ok (), world.handOn stream messages sent) := by
  induction decodes generalizing world with
  | nil => exact ⟨world.sent, by simp [handEntries, handOn]⟩
  | @cons entry message entries messages first rest induction =>
      obtain ⟨payload, isPayload, rfl⟩ := decodes_iff.mp first
      obtain ⟨outbound, transformed⟩ := transformStreamMessage_ne_error codec other
        (idText entry.id) payload
      obtain ⟨sent, handed⟩ := induction
        (world.handOn stream [⟨idText entry.id, payload⟩] (world.sent ++ outbound.toList))
      refine ⟨sent, ?_⟩
      rw [handEntries_cons codec stream entry entries world isPayload transformed, handed,
        handOn_handOn, List.singleton_append]

/-- Whatever raises, only messages of the entries are handed on, and nothing else changes. -/
theorem handEntries_spec (codec : Codec) (stream : String) (entries : List FieldEntry)
    (world : BroadcasterWorld) :
    ∃ messages sent, (handEntries codec stream entries world).2 =
        world.handOn stream messages sent ∧
      ∀ message ∈ messages, ∃ entry ∈ entries, Decodes codec entry message := by
  induction entries generalizing world with
  | nil => exact ⟨[], world.sent, by simp [handEntries, handOn], by simp⟩
  | cons entry rest induction =>
      cases isPayload : decodeRedisPayload codec entry.data with
      | error error => exact ⟨[], world.sent, by simp [handEntries, isPayload, handOn], by simp⟩
      | ok payload =>
          have own : ∀ message ∈ [(⟨idText entry.id, payload⟩ : Message)],
              ∃ source ∈ entry :: rest, Decodes codec source message := by
            intro message member
            obtain rfl := List.mem_singleton.mp member
            exact ⟨entry, List.mem_cons_self, decodes_iff.mpr ⟨payload, isPayload, rfl⟩⟩
          cases transformed : transformStreamMessage codec stream (idText entry.id) payload with
          | error error =>
              exact ⟨[⟨idText entry.id, payload⟩], world.sent,
                by simp [handEntries, isPayload, transformed, handOn], own⟩
          | ok outbound =>
              obtain ⟨messages, sent, handed, read⟩ := induction
                (world.handOn stream [⟨idText entry.id, payload⟩]
                  (world.sent ++ outbound.toList))
              refine ⟨[⟨idText entry.id, payload⟩] ++ messages, sent, ?_, ?_⟩
              · rw [handEntries_cons codec stream entry rest world isPayload transformed, handed,
                  handOn_handOn]
              · intro message member
                rcases List.mem_append.mp member with first | later
                · exact own message first
                · obtain ⟨source, isSource, decodes⟩ := read message later
                  exact ⟨source, List.mem_cons_of_mem _ isSource, decodes⟩

/-! ## Answers -/

@[simp] theorem handedFrom_advance (world : BroadcasterWorld) (stream other : String)
    (entries : List FieldEntry) :
    (world.advance stream entries).handedFrom other = world.handedFrom other := by
  rw [advance]
  split <;> rfl

theorem lookup_advance (world : BroadcasterWorld) (stream other : String) (position : ℕ)
    {entries : List FieldEntry} (read : entries ≠ []) :
    (world.advance stream entries).offsets.lookup other =
      if other = stream then some (.after (lastId position entries))
      else world.offsets.lookup other := by
  rw [advance, lastId]
  cases atEnd : entries.getLast? with
  | none => exact absurd (List.getLast?_eq_none_iff.mp atEnd) read
  | some last => exact Dict.lookup_set stream other _ _

/-- All but what was handed on, sent and moved. -/
structure Kept (before after : BroadcasterWorld) : Prop where
  streams : after.streams = before.streams
  appended : after.appended = before.appended
  polled : after.polled = before.polled
  waiting : after.waiting = before.waiting

theorem Kept.refl (world : BroadcasterWorld) : Kept world world := ⟨rfl, rfl, rfl, rfl⟩

theorem Kept.trans {first second third : BroadcasterWorld} (earlier : Kept first second)
    (later : Kept second third) : Kept first third where
  streams := later.streams.trans earlier.streams
  appended := later.appended.trans earlier.appended
  polled := later.polled.trans earlier.polled
  waiting := later.waiting.trans earlier.waiting

theorem kept_handOn (world : BroadcasterWorld) (stream : String) (messages : List Message)
    (sent : List (Dict String Value)) : Kept world (world.handOn stream messages sent) :=
  ⟨rfl, rfl, rfl, rfl⟩

theorem kept_advance (world : BroadcasterWorld) (stream : String) (entries : List FieldEntry) :
    Kept world (world.advance stream entries) := by
  rw [advance]
  split
  · exact ⟨rfl, rfl, rfl, rfl⟩
  · exact Kept.refl world

theorem kept_handAnswer (codec : Codec) (answer : List (String × List FieldEntry))
    (world : BroadcasterWorld) : Kept world (handAnswer codec answer world) := by
  induction answer generalizing world with
  | nil => exact Kept.refl world
  | cons first rest induction =>
      obtain ⟨stream, entries⟩ := first
      obtain ⟨messages, sent, handed, -⟩ := handEntries_spec codec stream entries world
      have own : Kept world (handEntries codec stream entries world).2 :=
        handed ▸ kept_handOn world stream messages sent
      rw [handAnswer]
      split
      · next after outcome =>
          rw [outcome] at own
          exact own
      · next after outcome =>
          rw [outcome] at own
          exact (own.trans (kept_advance after stream entries)).trans (induction _)

/-- What becomes of a stream that is read from a position: the next hundred entries are handed on,
and the offset moves with them. -/
structure Advanced (codec : Codec) (streams : String → FieldStream)
    (before after : BroadcasterWorld) (stream : String) (position : ℕ) : Prop where
  handed : ∃ messages,
    List.Forall₂ (Decodes codec) (((streams stream).after position).take 100) messages ∧
      after.handedFrom stream = before.handedFrom stream ++ messages
  offset : after.offsets.lookup stream =
    if (streams stream).after position = [] then before.offsets.lookup stream
    else some (.after (lastId position (((streams stream).after position).take 100)))

/-- What becomes of a stream that is not read. -/
structure Untouched (before after : BroadcasterWorld) (stream : String) : Prop where
  handed : after.handedFrom stream = before.handedFrom stream
  offset : after.offsets.lookup stream = before.offsets.lookup stream

theorem Untouched.trans {first second third : BroadcasterWorld}
    (earlier : Untouched first second stream) (later : Untouched second third stream) :
    Untouched first third stream :=
  ⟨later.handed.trans earlier.handed, later.offset.trans earlier.offset⟩

/-- The positions can be read: each stream once, and every entry after them can be read back. -/
structure Readable (codec : Codec) (streams : String → FieldStream)
    (positions : List (String × ℕ)) : Prop where
  distinct : (positions.map Prod.fst).Nodup
  other : ∀ request ∈ positions, request.1 ≠ "market_events"
  decodes : ∀ request ∈ positions, ∀ entry ∈ (streams request.1).after request.2,
    ∃ message, Decodes codec entry message

theorem exists_forall₂ {entries : List FieldEntry}
    (decodes : ∀ entry ∈ entries, ∃ message, Decodes codec entry message) :
    ∃ messages, List.Forall₂ (Decodes codec) entries messages := by
  induction entries with
  | nil => exact ⟨[], .nil⟩
  | cons entry rest induction =>
      obtain ⟨message, first⟩ := decodes entry List.mem_cons_self
      obtain ⟨messages, later⟩ := induction fun entry member =>
        decodes entry (List.mem_cons_of_mem _ member)
      exact ⟨message :: messages, .cons first later⟩

/-- Reading advances the streams of the positions and leaves the others alone. -/
theorem handAnswer_xread {streams : String → FieldStream} {positions : List (String × ℕ)}
    (readable : Readable codec streams positions) (world : BroadcasterWorld) :
    (∀ request ∈ positions, Advanced codec streams world
      (handAnswer codec (xread streams 100 positions) world) request.1 request.2) ∧
    ∀ stream ∉ positions.map Prod.fst,
      Untouched world (handAnswer codec (xread streams 100 positions) world) stream := by
  induction positions generalizing world with
  | nil => exact ⟨by simp, fun stream _ => ⟨rfl, rfl⟩⟩
  | cons request rest induction =>
      obtain ⟨stream, position⟩ := request
      have distinct := List.nodup_cons.mp readable.distinct
      have later : Readable codec streams rest :=
        ⟨distinct.2, fun request member => readable.other request (List.mem_cons_of_mem _ member),
          fun request member => readable.decodes request (List.mem_cons_of_mem _ member)⟩
      obtain ⟨taken, isTaken⟩ : ∃ taken, taken = ((streams stream).after position).take 100 :=
        ⟨_, rfl⟩
      have nil_iff : taken = [] ↔ (streams stream).after position = [] := by
        rw [isTaken, List.take_eq_nil_iff]
        exact ⟨fun either => either.resolve_left (by decide), .inr⟩
      rw [xread, ← isTaken]
      split
      · next isEmpty =>
          obtain ⟨advanced, untouched⟩ := induction later world
          refine ⟨fun request member => ?_, fun other absent => ?_⟩
          · rcases List.mem_cons.mp member with rfl | inRest
            · have alone := untouched stream distinct.1
              have isNil := nil_iff.mp rfl
              exact ⟨⟨[], by simp [isNil], by simpa using alone.handed⟩,
                by rw [if_pos isNil]; exact alone.offset⟩
            · exact advanced request inRest
          · exact untouched other fun inRest => absent (List.mem_cons_of_mem _ inRest)
      · next first others =>
          obtain ⟨read, isRead⟩ : ∃ read, read = first :: others := ⟨_, rfl⟩
          rw [← isRead] at isTaken nil_iff ⊢
          have present : read ≠ [] := by simp [isRead]
          obtain ⟨messages, decodes⟩ := @exists_forall₂ codec read fun entry member =>
            readable.decodes (stream, position) List.mem_cons_self entry
              (List.mem_of_mem_take (isTaken ▸ member))
          obtain ⟨sent, handed⟩ := handEntries_of_decodes
            (readable.other (stream, position) List.mem_cons_self) decodes world
          obtain ⟨middle, isMiddle⟩ : ∃ middle, middle =
            (world.handOn stream messages sent).advance stream read := ⟨_, rfl⟩
          have handedFrom_middle : ∀ other, middle.handedFrom other =
              world.handedFrom other ++ if other = stream then messages else [] := by
            intro other
            rw [isMiddle, handedFrom_advance, handedFrom_handOn]
          have lookup_middle : ∀ other, middle.offsets.lookup other =
              if other = stream then some (.after (lastId position read))
              else world.offsets.lookup other := by
            intro other
            rw [isMiddle, lookup_advance _ stream other position present]
            rfl
          rw [handAnswer, handed]
          dsimp only
          rw [← isMiddle]
          obtain ⟨advanced, untouched⟩ := induction later middle
          refine ⟨fun request member => ?_, fun other absent => ?_⟩
          · rcases List.mem_cons.mp member with rfl | inRest
            · have alone := untouched stream distinct.1
              refine ⟨⟨messages, isTaken ▸ decodes, ?_⟩, ?_⟩
              · rw [alone.handed, handedFrom_middle, if_pos rfl]
              · rw [alone.offset, lookup_middle, if_pos rfl, if_neg (mt nil_iff.mpr present),
                  isTaken]
            · have differs : request.1 ≠ stream := by
                intro same
                have inKeys : request.1 ∈ rest.map Prod.fst := List.mem_map_of_mem inRest
                rw [same] at inKeys
                exact distinct.1 inKeys
              obtain ⟨⟨more, decodes, isMore⟩, moved⟩ := advanced request inRest
              refine ⟨⟨more, decodes, ?_⟩, ?_⟩
              · rw [isMore, handedFrom_middle, if_neg differs, List.append_nil]
              · rw [moved, lookup_middle, if_neg differs]
          · have differs : other ≠ stream := by
              rintro rfl
              exact absent List.mem_cons_self
            have before : Untouched world middle other :=
              ⟨by rw [handedFrom_middle, if_neg differs, List.append_nil],
                by rw [lookup_middle, if_neg differs]⟩
            exact before.trans (untouched other fun inRest =>
              absent (List.mem_cons_of_mem _ inRest))

end TradingControl.Dashboard
