import TradingControl.Events.MultiStreamAgent
import TradingControl.Events.Replay
import TradingControl.Python.Json
import TradingControl.Streams.Stream

/-!
# Event bus

`EventBus` on the commands of Redis streams: publishing, reading with the self-healing of a missing
group, acknowledging, reclaiming, and the set-up of all groups at start, with its fast-forwarding.
-/

namespace TradingControl.Events

open Effects Python Streams

/-! ## Fields -/

/-- An entry of a stream, as Redis keeps it. -/
abbrev FieldEntry := Streams.Entry (List (String × String))

/-- Streams of events, with the groups and consumers by name. -/
abbrev FieldStream := Streams.Stream (List (String × String)) String

/-- The interpreter, as far as it writes fields and reads them back. -/
structure Codec where
  runtime : Runtime
  formatter : Formatter
  /-- Levels that a JSON text may nest. -/
  depth : ℕ

/-- `_deserialize`. -/
def deserialize (codec : Codec) (value : String) : Except Raised Value :=
  if lower value = "true" then .ok (.bool true)
  else if lower value = "false" then .ok (.bool false)
  else if startsWith value "\x7b" || startsWith value "[" || startsWith value "\"" then
    match Json.loads codec.runtime codec.depth value with
    | .ok decoded => .ok decoded
    | .error .jsonDecodeError => .ok (.str value)
    | .error .typeError => .ok (.str value)
    | .error error => .error error
  else .ok (.str value)

/-- The fields of an entry, read back into a dictionary. -/
def decodeFields (codec : Codec) (fields : List (String × String)) :
    Except Raised (Dict String Value) :=
  fields.foldlM (fun decoded (key, value) => do
    return Dict.set key (← deserialize codec value) decoded) []

/-- An entry as the bus hands it on. -/
def decodeEntry (codec : Codec) (entry : FieldEntry) : Except Raised Message := do
  return ⟨idText entry.id, ← decodeFields codec entry.data⟩

/-! ## Commands -/

/-- Exceptions of the Redis client. -/
inductive Outage where
  | connection
  | timeout
  /-- Any other error that the server answers. -/
  | response
  | unexpected
deriving DecidableEq

inductive BusFailure where
  /-- `BUSYGROUP`. -/
  | busyGroup
  /-- `NOGROUP`. -/
  | noGroup
  | outage (outage : Outage)
  /-- Raised while fields are read back. -/
  | raised (error : Raised)
deriving DecidableEq

/-- Where a group starts: `"0"` or `"$"`. -/
inductive GroupStart where
  | beginning
  | latest

/-- What `XINFO GROUPS` says about a group. -/
structure GroupInfo where
  name : String
  pending : ℕ
  lastDeliveredId : String
deriving DecidableEq

inductive BusOp where
  | utcNow
  | xadd (stream : String) (fields : List (String × String)) (maxlen : Option ℕ)
  | xreadgroup (stream group consumer : String) (count : ℕ)
  | xack (stream group : String) (ids : List String)
  | xgroupCreate (stream group : String) (start : GroupStart)
  | xinfoGroups (stream : String)
  /-- `last-generated-id` of `XINFO STREAM`. -/
  | xinfoStream (stream : String)
  /-- `XGROUP SETID` to `"$"`. -/
  | xgroupSetid (stream group : String)
  | xautoclaim (stream group consumer : String) (minIdle : ℕ)

abbrev BusOp.Answer : BusOp → Type
  | .utcNow => String
  | .xadd _ _ _ => String
  | .xreadgroup _ _ _ _ => List FieldEntry
  | .xack _ _ _ => ℕ
  | .xinfoGroups _ => List GroupInfo
  | .xinfoStream _ => String
  | .xautoclaim _ _ _ _ => List FieldEntry
  | _ => Unit

abbrev busSignature : Signature where
  Op := BusOp
  Answer := BusOp.Answer

/-- Programs of the bus. -/
abbrev Bus (α : Type) := Program busSignature BusFailure α

/-- One command as a program. -/
def command (op : BusOp) : Bus op.Answer := Program.perform (S := busSignature) op

/-! ## Bus -/

/-- `PIPELINE_GROUP`. -/
def pipelineGroup : String := "broadcast_pipeline"

namespace EventBus

variable (codec : Codec)

/-- `publish`: the message id, or `none` where the append failed. -/
def publish (stream : String) (event : Dict String Value) (maxlen : Option ℕ) :
    Bus (Option String) := do
  let now ← command .utcNow
  let limit := if maxlen = some 0 then none else maxlen
  match ← (command (.xadd stream (eventFields codec.formatter event now) limit)).attempt with
  | .ok messageId => return some messageId
  | .error _ => return none

/-- `acknowledge`: every failure is swallowed. -/
def acknowledge (stream group : String) (ids : List String) : Bus ℕ := do
  if ids = [] then return 0
  match ← (command (.xack stream group ids)).attempt with
  | .ok count => return count
  | .error _ => return 0

/-- `create_consumer_group`. -/
def createConsumerGroup (stream group : String) (start : GroupStart) : Bus Unit := do
  match ← (command (.xgroupCreate stream group start)).attempt with
  | .ok _ => return
  | .error .busyGroup => return
  | .error error => .raise error

/-- `_ensure_stream_and_group`. -/
def ensureStreamAndGroup (stream group : String) : Bus Unit := do
  let _ ← (command (.xgroupCreate stream group .latest)).attempt

def decodeEntries (entries : List FieldEntry) : Bus (List Message) :=
  match entries.mapM (decodeEntry codec) with
  | .ok messages => .ret messages
  | .error error => .raise (.raised error)

/-- What becomes of a read that fails: a missing group is made, all else is swallowed. -/
def selfHeal (stream group : String) : BusFailure → Bus (List Message)
  | .noGroup => do
      ensureStreamAndGroup stream group
      return []
  | _ => return []

/-- `consume`. -/
def consume (stream group consumer : String) (count : ℕ) : Bus (List Message) :=
  Program.tryCatch (do
    let entries ← command (.xreadgroup stream group consumer count)
    decodeEntries codec entries) (selfHeal stream group)

/-- `reclaim_stale`. -/
def reclaimStale (stream group consumer : String) (minIdle : ℕ) : Bus (List Message) :=
  Program.tryCatch (do
    let entries ← command (.xautoclaim stream group consumer minIdle)
    decodeEntries codec entries) (selfHeal stream group)

/-- Ids that count as the beginning of a stream. -/
def beginningIds : List String := ["0", "0-0", "0-1"]

/-- Move the agents' group to the end where it has nothing pending and is at the beginning. -/
def fastforwardGroups (stream : String) : List GroupInfo → Bus Unit
  | [] => .ret ()
  | group :: rest => do
      if group.name = defaultGroup && group.pending = 0 &&
          beginningIds.contains group.lastDeliveredId then
        command (.xgroupSetid stream defaultGroup)
      fastforwardGroups stream rest

/-- `_maybe_fastforward_group`. -/
def maybeFastforwardGroup (stream : String) : Bus Unit := do
  let _ ← (do
    let groups ← command (.xinfoGroups stream)
    let lastEntry ← command (.xinfoStream stream)
    if lastEntry = "" then return
    fastforwardGroups stream groups).attempt

/-- One stream and group of `create_groups`. -/
def createOrFastforward (stream group : String) : Bus Unit := do
  match ← (command (.xgroupCreate stream group .latest)).attempt with
  | .ok _ => return
  | .error .busyGroup => if group = defaultGroup then maybeFastforwardGroup stream
  | .error error => .raise error

def createGroupsOf : List String → Bus Unit
  | [] => .ret ()
  | stream :: rest => do
      createOrFastforward stream defaultGroup
      createOrFastforward stream pipelineGroup
      createGroupsOf rest

/-- `create_groups`. -/
def createGroups : Bus Unit := createGroupsOf streams

def missingGroups (stream : String) : Bus (List (String × String)) := do
  match ← (command (.xinfoGroups stream)).attempt with
  | .ok groups =>
      return ([defaultGroup, pipelineGroup].filter fun group =>
        !(groups.map GroupInfo.name).contains group).map (stream, ·)
  | .error _ => return [(stream, defaultGroup), (stream, pipelineGroup)]

def allMissing : List String → Bus (List (String × String))
  | [] => .ret []
  | stream :: rest => do
      let missing ← missingGroups stream
      return missing ++ (← allMissing rest)

def ensureAll : List (String × String) → Bus Unit
  | [] => .ret ()
  | (stream, group) :: rest => do
      ensureStreamAndGroup stream group
      ensureAll rest

/-- `ensure_all_streams_ready`. -/
def ensureAllStreamsReady : Bus Unit := do
  createGroups
  let missing ← allMissing streams
  ensureAll missing

end EventBus

/-! ## World -/

/-- Whose publish an entry is. -/
inductive Author where
  | producer
  | pipeline
  | replay
deriving DecidableEq

/-- Something that has happened to a stream. -/
inductive BusEvent where
  | appended (author : Author) (stream : String) (entry : FieldEntry)
  | trimmed (stream : String) (entry : FieldEntry)
  | delivered (stream group : String) (entry : FieldEntry)
  | acknowledged (stream group : String) (id : ℕ)
  | groupCreated (stream group : String)
  | groupLost (stream group : String)
  | groupMoved (stream group : String)
  | inspected (stream : String) (info : GroupInfo)
deriving DecidableEq

/-- What the environment decides about one command. -/
structure BusChoice where
  reply : Reply := .answered
  outage : Outage := .connection
  /-- Distance of a new id from the smallest one possible. -/
  gap : ℕ := 0
  /-- Entries that `MAXLEN` drops. -/
  dropped : ℕ := 0
  now : ℕ := 0
  clock : String := "1970-01-01T00:00:00+00:00"

/-- The streams, the names of their groups from the oldest, and what has happened. -/
structure BusWorld where
  streams : String → FieldStream := fun _ => Streams.Stream.empty
  groupNames : String → List String := fun _ => []
  history : List BusEvent := []

namespace BusWorld

/-- Another state of one stream, and what has happened to it. -/
def commit (world : BusWorld) (stream : String) (later : FieldStream) (events : List BusEvent) :
    BusWorld :=
  { world with
    streams := Function.update world.streams stream later
    history := world.history ++ events }

/-- Drop the oldest entries. -/
def trim (world : BusWorld) (stream : String) (count : ℕ) : BusWorld :=
  world.commit stream ((world.streams stream).trim count)
    (((world.streams stream).entries.take count).map (.trimmed stream))

/-- `XADD`. -/
def append (world : BusWorld) (author : Author) (stream : String) (gap : ℕ)
    (fields : List (String × String)) : String × BusWorld :=
  let later := (world.streams stream).append gap fields
  (idText later.lastGenerated,
    world.commit stream later [.appended author stream ⟨later.lastGenerated, fields⟩])

def deliver (world : BusWorld) (stream group : String)
    (answer : Option (List FieldEntry × FieldStream)) :
    Except BusFailure (List FieldEntry) × BusWorld :=
  match answer with
  | some (entries, later) =>
      (.ok entries, world.commit stream later (entries.map (.delivered stream group)))
  | none => (.error .noGroup, world)

/-- `XACK` of one id. -/
def acknowledge (world : BusWorld) (stream group eventId : String) : ℕ × BusWorld :=
  match ((world.streams stream).groups group).bind fun held =>
      held.pending.find? fun entry => idText entry.id = eventId with
  | some entry =>
      (1, world.commit stream ((world.streams stream).acknowledge group entry.id)
        [.acknowledged stream group entry.id])
  | none => (0, world)

/-- `XACK`. -/
def acknowledgeAll (world : BusWorld) (stream group : String) : List String → ℕ × BusWorld
  | [] => (0, world)
  | eventId :: rest =>
      let (first, acknowledged) := world.acknowledge stream group eventId
      let (others, after) := acknowledgeAll acknowledged stream group rest
      (first + others, after)

def startGroup (stream : FieldStream) (group : String) : GroupStart → FieldStream
  | .beginning => stream.setGroup group (Group.startAt 0) (Nat.zero_le _)
  | .latest => stream.createGroup group

/-- `XGROUP CREATE`. -/
def createGroup (world : BusWorld) (stream group : String) (start : GroupStart) :
    Except BusFailure Unit × BusWorld :=
  match (world.streams stream).groups group with
  | some _ => (.error .busyGroup, world)
  | none =>
      (.ok (),
        { world.commit stream (startGroup (world.streams stream) group start)
            [.groupCreated stream group] with
          groupNames := Function.update world.groupNames stream
            (world.groupNames stream ++ [group]) })

/-- `XINFO GROUPS`. -/
def groupInfo (world : BusWorld) (stream : String) : List GroupInfo :=
  (world.groupNames stream).filterMap fun name =>
    ((world.streams stream).groups name).map fun held =>
      ⟨name, held.pending.length, idText held.lastDelivered⟩

/-- `XGROUP SETID`. -/
def moveGroup (world : BusWorld) (stream group : String) : Except BusFailure Unit × BusWorld :=
  match (world.streams stream).groups group with
  | some _ =>
      (.ok (), world.commit stream ((world.streams stream).moveToEnd group)
        [.groupMoved stream group])
  | none => (.error .noGroup, world)

/-- A group is gone. -/
def loseGroup (world : BusWorld) (stream group : String) : BusWorld :=
  { world.commit stream ((world.streams stream).removeGroup group) [.groupLost stream group] with
    groupNames := Function.update world.groupNames stream
      ((world.groupNames stream).erase group) }

end BusWorld

/-- A command that takes effect unless it is lost. -/
def commandReply {α : Type} (choice : BusChoice) (before : BusWorld)
    (done : Except BusFailure α × BusWorld) : Except BusFailure α × BusWorld :=
  match choice.reply with
  | .answered => done
  | .lost => (.error (.outage choice.outage), before)
  | .unacknowledged => (.error (.outage choice.outage), done.2)

/-- Carry out one command. -/
def busCommand (author : Author) :
    (op : BusOp) → BusChoice → BusWorld → Except BusFailure op.Answer × BusWorld
  | .utcNow, choice, world => (.ok choice.clock, world)
  | .xadd stream fields none, choice, world =>
      let (id, after) := world.append author stream choice.gap fields
      (.ok id, after)
  | .xadd stream fields (some _), choice, world =>
      let (id, after) :=
        (world.trim stream choice.dropped).append author stream choice.gap fields
      (.ok id, after)
  | .xreadgroup stream group consumer count, choice, world =>
      world.deliver stream group
        ((world.streams stream).read group consumer count choice.now)
  | .xack stream group ids, _, world =>
      let (count, after) := world.acknowledgeAll stream group ids
      (.ok count, after)
  | .xgroupCreate stream group start, _, world => world.createGroup stream group start
  | .xinfoGroups stream, _, world =>
      (.ok (world.groupInfo stream),
        { world with history := world.history ++ (world.groupInfo stream).map (.inspected stream) })
  | .xinfoStream stream, _, world => (.ok (idText (world.streams stream).lastGenerated), world)
  | .xgroupSetid stream group, _, world => world.moveGroup stream group
  | .xautoclaim stream group consumer minIdle, choice, world =>
      world.deliver stream group
        ((world.streams stream).autoclaim group consumer minIdle 100 choice.now)

/-- Answer one command. -/
def busHandler (author : Author) : Handler busSignature BusFailure BusChoice BusWorld
  | .utcNow, choice, world => (.ok choice.clock, world)
  | op, choice, world => commandReply choice world (busCommand author op choice world)

end TradingControl.Events
