import TradingControl.Dashboard.PersistenceRouting
import TradingControl.Events.PipelineHandled

/-!
# Events that the pipeline persists in memory

While the database is down, the pipeline writes every event to a bucket of the runtime store, and to
the events feed where the bucket is another one.  It does so before it broadcasts, and remembers the
event after that: an attempt that fails in between has left its rows, and the retried copy leaves
them again.
-/

namespace TradingControl.Dashboard

open Effects Events MergeFirst Python

-- the window lemmas say all there is to know, and a thousand is too far to unfold
attribute [local irreducible] lastItems

/-! ## World -/

/-- The pipeline and the runtime store, and the ids of the events that were taken up, from the
first. -/
structure MemoryWorld where
  pipeline : PipelineWorld := {}
  buckets : Buckets := {}
  attempted : List String := []

/-- The row of `add_event` in the pipeline. -/
def feedRow (event : FeedEvent) : Dict String Value :=
  [("id", .str event.id), ("kind", .str event.kind), ("source", .str event.source),
    ("created_at", .str event.createdAt)]

section

variable (pipeline : EventPipeline)

/-- Answer one operation while the database is down; a choice comes with a time in seconds. -/
def memoryHandler :
    Handler pipelineSignature PipelineFailure (PipelineChoice × ℚ) MemoryWorld
  | .isProcessed msgId, _, world =>
      let processed := decide (msgId ∈ world.pipeline.processedMsgIds)
      (.ok processed,
        if processed then world else { world with attempted := world.attempted ++ [msgId] })
  | .persistEvent stream msgId event, choice, world =>
      match determinePersistRoute false stream event with
      | .memory =>
          let (wrote, buckets) := writeEventToMemory pipeline choice.2 stream msgId event
            world.buckets
          (.ok wrote, { world with buckets := buckets })
      | _ => (.ok false, world)
  | .isDbAvailable, _, world => (.ok false, world)
  | .addEvent event, choice, world =>
      (.ok (), { world with
        buckets := { world.buckets with
          eventHistory := appendRow "timestamp" 1000 choice.2 event.id (feedRow event)
            world.buckets.eventHistory } })
  | op, choice, world =>
      ((pipelineHandler op choice.1 world.pipeline).1,
        { world with pipeline := (pipelineHandler op choice.1 world.pipeline).2 })

/-- Runs of the pipeline with any choices while the database is down. -/
abbrev inMemory : Transformer pipelineSignature PipelineFailure MemoryWorld :=
  (memoryHandler pipeline).demonic fun _ => True

end

/-! ## Events in rows -/

def eventIds (rows : List EventRow) : List String := rows.flatMap (·.sources)

/-- Every event went into the rows no more often than it was taken up. -/
def Bounded (rows : List EventRow) (attempted : List String) : Prop :=
  ∀ msgId, (eventIds rows).count msgId ≤ attempted.count msgId

theorem bounded_lastItems {rows : List EventRow} {attempted : List String} {cap : ℕ}
    (bounded : Bounded rows attempted) : Bounded (lastItems cap rows) attempted := by
  intro msgId
  exact Nat.le_trans (((lastItems_sublist cap rows).flatMap _).count_le msgId) (bounded msgId)

theorem bounded_concat {rows : List EventRow} {attempted : List String} {msgId : String}
    {row : Dict String Value} (bounded : Bounded rows attempted) :
    Bounded (rows ++ [⟨row, [msgId]⟩]) (attempted ++ [msgId]) := by
  intro other
  rw [eventIds, List.flatMap_append, List.count_append, List.count_append]
  exact Nat.add_le_add (bounded other) (by simp)

theorem Bounded.weaken {rows : List EventRow} {attempted : List String} {msgId : String}
    (bounded : Bounded rows attempted) : Bounded rows (attempted ++ [msgId]) := by
  intro other
  rw [List.count_append]
  exact Nat.le_add_right_of_le (bounded other)

theorem bounded_appendRow {rows : List EventRow} {attempted : List String} {stamp : String}
    {cap : ℕ} {now : ℚ} {msgId : String} {payload : Dict String Value}
    (bounded : Bounded rows attempted) :
    Bounded (appendRow stamp cap now msgId payload rows) (attempted ++ [msgId]) :=
  bounded_lastItems (bounded_concat bounded)

theorem bounded_upsertSourced {rows : List EventRow} {attempted : List String} {stamp : String}
    {names : List String} {now : ℚ} {msgId : String} {payload : Dict String Value}
    (bounded : Bounded rows attempted) :
    Bounded (upsertSourced stamp names now msgId payload rows) (attempted ++ [msgId]) := by
  unfold upsertSourced
  dsimp only
  generalize Events.setDefault payload stamp (.float now) = payload
  generalize merging : (if (keyOf names payload).truthy = true then
    mergeFirst (fun kept => hasKey names (keyOf names payload) kept.row) (.merge msgId payload) rows
    else none) = merged
  cases merged with
  | none => exact bounded_lastItems (bounded_concat bounded)
  | some merged =>
      split_ifs at merging
      obtain ⟨before, kept, after, rfl, -, -, rfl⟩ := mergeFirst_eq_some merging
      intro other
      have held := bounded other
      simp only [Option.getD_some, eventIds, List.flatMap_append, List.flatMap_cons,
        SourcedRow.merge, List.count_append] at held ⊢
      omega

theorem countP_le_count (rows : List EventRow) (msgId : String) :
    rows.countP (fun row => decide (msgId ∈ row.sources)) ≤ (eventIds rows).count msgId := by
  induction rows with
  | nil => exact Nat.le_refl 0
  | cons row rows induction =>
      rw [List.countP_cons, eventIds, List.flatMap_cons, List.count_append, Nat.add_comm]
      apply Nat.add_le_add _ induction
      by_cases inside : msgId ∈ row.sources
      · simp [inside]
      · simp [inside]

/-! ## Between two events -/

/-- Every event went into each bucket but the events feed no more often than it was taken up. -/
structure OwnBounded (buckets : Buckets) (attempted : List String) : Prop where
  agentLogs : Bounded buckets.agentLogs attempted
  orders : Bounded buckets.orders attempted
  gradeHistory : Bounded buckets.gradeHistory attempted
  vectorMemory : Bounded buckets.vectorMemory attempted
  tradeFeed : Bounded buckets.tradeFeed attempted

/-- The events feed has a row for each of the last events, in order. -/
def Feeds (buckets : Buckets) (attempted : List String) : Prop :=
  buckets.eventHistory.map (·.sources) = lastItems 1000 (attempted.map fun msgId => [msgId])

/-- Every event that was taken up has its row in the feed, and is nowhere more often than it was
taken up. -/
structure Settled (world : MemoryWorld) : Prop where
  feed : Feeds world.buckets world.attempted
  own : OwnBounded world.buckets world.attempted

/-- The event that was taken up last has no row in the feed yet. -/
structure FeedOwed (msgId : String) (before : List String) (world : MemoryWorld) : Prop where
  attempted : world.attempted = before ++ [msgId]
  feed : Feeds world.buckets before
  own : OwnBounded world.buckets world.attempted

section

variable {pipeline : EventPipeline} {world : MemoryWorld}

theorem feeds_append {buckets : Buckets} {attempted : List String} (feeds : Feeds buckets attempted)
    (now : ℚ) (msgId : String) (row : Dict String Value) :
    (appendRow "timestamp" 1000 now msgId row buckets.eventHistory).map (·.sources) =
      lastItems 1000 ((attempted ++ [msgId]).map fun msgId => [msgId]) := by
  rw [appendRow, ← lastItems_map, List.map_append, feeds, List.map_append]
  exact lastItems_append_singleton _ _

theorem OwnBounded.weaken {buckets : Buckets} {attempted : List String}
    (own : OwnBounded buckets attempted) (msgId : String) :
    OwnBounded buckets (attempted ++ [msgId]) where
  agentLogs := own.agentLogs.weaken
  orders := own.orders.weaken
  gradeHistory := own.gradeHistory.weaken
  vectorMemory := own.vectorMemory.weaken
  tradeFeed := own.tradeFeed.weaken

/-- Writing an event leaves it in the feed, or in a bucket of its own. -/
theorem Settled.write (settled : Settled world) (now : ℚ) (stream msgId : String)
    (event : Dict String Value) :
    let written := writeEventToMemory pipeline now stream msgId event world.buckets
    let after : MemoryWorld :=
      { world with buckets := written.2, attempted := world.attempted ++ [msgId] }
    (written.1 = true → Settled after) ∧
      (written.1 = false → FeedOwed msgId world.attempted after) := by
  obtain ⟨feed, own⟩ := settled
  have keep := own.weaken msgId
  unfold writeEventToMemory
  dsimp only
  split_ifs
  · exact ⟨nofun, fun _ => ⟨rfl, feed,
      { keep with agentLogs := bounded_appendRow own.agentLogs }⟩⟩
  · exact ⟨nofun, fun _ => ⟨rfl, feed, { keep with orders := bounded_appendRow own.orders }⟩⟩
  · exact ⟨nofun, fun _ => ⟨rfl, feed,
      { keep with gradeHistory := bounded_upsertSourced own.gradeHistory }⟩⟩
  · exact ⟨nofun, fun _ => ⟨rfl, feed,
      { keep with vectorMemory := bounded_appendRow own.vectorMemory }⟩⟩
  · exact ⟨nofun, fun _ => ⟨rfl, feed,
      { keep with tradeFeed := bounded_upsertSourced own.tradeFeed }⟩⟩
  · exact ⟨fun _ => ⟨feeds_append feed now msgId _, { keep with }⟩, nofun⟩

/-! ## One event after another -/

/-- An operation that neither takes an event up nor writes to a bucket. -/
def KeepsRows : PipelineOp → Prop
  | .isProcessed _ => False
  | .persistEvent _ _ _ => False
  | .addEvent _ => False
  | _ => True

theorem Settled.keep (settled : Settled world) {op : PipelineOp} (keeps : KeepsRows op)
    (choice : PipelineChoice × ℚ) : Settled (memoryHandler pipeline op choice world).2 := by
  cases op with
  | isProcessed msgId => exact keeps.elim
  | persistEvent stream msgId event => exact keeps.elim
  | addEvent event => exact keeps.elim
  | _ => exact ⟨settled.feed, settled.own⟩

/-- A program that writes to no bucket leaves the buckets settled. -/
theorem Settled.wp_keep {α : Type} {program : Piping α} (calls : program.Calls KeepsRows)
    (settled : Settled world) {post : Except PipelineFailure α → MemoryWorld → Prop}
    (finish : ∀ outcome world, Settled world → post outcome world) :
    program.wp (inMemory pipeline) post world :=
  Program.wp_of_calls
    (fun _ keeps _ _ settled continues choice _ => continues _ _ (settled.keep keeps choice))
    calls settled finish

theorem keepsRows_pipe {op : PipelineOp} (keeps : KeepsRows op) : (pipe op).Calls KeepsRows :=
  Program.calls_perform keeps

theorem keepsRows_acknowledge (stream redisId : String) :
    (EventPipeline.acknowledge stream redisId).Calls KeepsRows :=
  Program.calls_bind (Program.calls_attempt (keepsRows_pipe (by trivial))) fun _ => trivial

theorem keepsRows_trackAgent (event : Dict String Value) (eventType msgId : String) :
    (pipeline.trackAgent event eventType msgId).Calls KeepsRows := by
  simp only [EventPipeline.trackAgent]
  split
  · exact Program.calls_bind (keepsRows_pipe (by trivial)) fun _ =>
      Program.calls_bind (keepsRows_pipe (by trivial)) fun _ => keepsRows_pipe (by trivial)
  · trivial

theorem keepsRows_handleFailure (stream : String) (message : Message) (msgId : String)
    (retryCount : ℤ) (failure : PipelineFailure) :
    (pipeline.handleFailure stream message msgId retryCount failure).Calls KeepsRows := by
  have published (event : Dict String Value) :
      (pipeline.publish stream event).Calls KeepsRows :=
    Program.calls_bind (keepsRows_pipe (by trivial)) fun now =>
      Program.calls_bind (Program.calls_attempt (keepsRows_pipe (by trivial))) fun outcome => by
        cases outcome <;> trivial
  simp only [EventPipeline.handleFailure]
  split
  · exact Program.calls_bind (published _) fun _ => keepsRows_acknowledge stream message.id
  · exact Program.calls_bind (keepsRows_pipe (by trivial)) fun _ =>
      Program.calls_bind (keepsRows_acknowledge stream message.id) fun _ =>
        Program.calls_bind (keepsRows_pipe (by trivial)) fun _ => keepsRows_pipe (by trivial)

/-- An event that was taken up is in the feed before anything can fail. -/
theorem Settled.wp_prepare (settled : Settled world) (stream : String) (message : Message)
    (eventType msgId ts : String) :
    (pipeline.prepare stream message eventType msgId ts).wp (inMemory pipeline)
      (fun _ after => Settled after) { world with attempted := world.attempted ++ [msgId] } := by
  have tracked : (if pipeline.tracksAgents then
      pipeline.trackAgent message.data eventType msgId else .ret () : Piping Unit).Calls
        KeepsRows := by
    split
    · exact keepsRows_trackAgent message.data eventType msgId
    · trivial
  -- what is left once the event was written, or was not
  have finish {after : MemoryWorld} {wrote : Bool} (landed : wrote = true → Settled after)
      (owed : wrote = false → FeedOwed msgId world.attempted after) :
      ((pipe .isDbAvailable).bind fun dbAvailable =>
        if !dbAvailable && !wrote then
          (pipe (.addEvent ⟨msgId, eventType, pipeline.textOr message.data "source" stream,
            ts⟩)).bind fun _ => if pipeline.tracksAgents then
              pipeline.trackAgent message.data eventType msgId else .ret ()
        else if pipeline.tracksAgents then
          pipeline.trackAgent message.data eventType msgId else .ret () : Piping Unit).wp
        (inMemory pipeline) (fun _ after => Settled after) after := by
    rw [Program.wp_bind, pipe, Program.wp_perform]
    intro choice _
    cases wrote with
    | true => exact (landed rfl).wp_keep tracked fun _ _ settled => settled
    | false =>
        obtain ⟨attempted, feed, own⟩ := owed rfl
        dsimp only [memoryHandler, Program.andThen]
        rw [if_pos (show (!false && !false) = true from rfl), Program.wp_bind, pipe,
          Program.wp_perform]
        intro choice _
        dsimp only [memoryHandler, Program.andThen]
        refine Settled.wp_keep tracked ⟨?_, ?_⟩ fun _ _ settled => settled
        · rw [Feeds]
          dsimp only
          rw [attempted]
          exact feeds_append feed choice.2 msgId _
        · exact { own with }
  rw [EventPipeline.prepare, Program.bind_eq_bind, Program.wp_bind,
    EventPipeline.persistBestEffort, Program.bind_eq_bind, Program.wp_bind, Program.wp_attempt,
    pipe, Program.wp_perform]
  intro choice _
  cases route : determinePersistRoute false stream message.data with
  | memory =>
      have written := @Settled.write pipeline _ settled choice.2 stream msgId message.data
      dsimp only [memoryHandler, Program.andThen]
      rw [route]
      exact finish written.1 written.2
  | _ =>
      dsimp only [memoryHandler, Program.andThen]
      rw [route]
      exact @finish _ false (fun wrote => by cases wrote) fun _ => ⟨rfl, settled.feed, settled.own.weaken msgId⟩

/-- `_process_message` leaves the buckets settled, also where it raises. -/
theorem Settled.wp_processMessage (settled : Settled world) (stream : String) (message : Message)
    (eventType msgId ts : String) :
    (pipeline.processMessage stream message eventType msgId ts).wp (inMemory pipeline)
      (fun _ after => Settled after) world := by
  have monotone := (memoryHandler pipeline).demonic_monotone fun _ => True
  rw [EventPipeline.processMessage, Program.bind_eq_bind, Program.wp_bind, pipe,
    Program.wp_perform]
  intro choice _
  by_cases processed : msgId ∈ world.pipeline.processedMsgIds
  · simp only [memoryHandler, Program.andThen, processed, decide_true, if_true]
    exact settled.wp_keep (keepsRows_acknowledge stream message.id) fun _ _ settled => settled
  · simp only [memoryHandler, Program.andThen, processed, decide_false, Bool.false_eq_true,
      if_false]
    rw [Program.bind_eq_bind, Program.wp_bind]
    refine Program.wp_mono monotone (fun outcome after prepared => ?_)
      (settled.wp_prepare stream message eventType msgId ts)
    cases outcome with
    | error failure => exact prepared
    | ok _ =>
        have rest : ((pipe (.broadcast (.event stream msgId eventType message.data ts))).bind
            fun _ => (EventPipeline.acknowledge stream message.id).bind fun _ =>
              pipe (.remember msgId)).Calls KeepsRows :=
          Program.calls_bind (keepsRows_pipe (by trivial)) fun _ =>
            Program.calls_bind (keepsRows_acknowledge stream message.id) fun _ =>
              keepsRows_pipe (by trivial)
        exact prepared.wp_keep rest fun _ _ settled => settled

theorem Settled.wp_processWithRetry (settled : Settled world) (stream : String)
    (message : Message) :
    (pipeline.processWithRetry stream message).wp (inMemory pipeline)
      (fun _ after => Settled after) world := by
  have monotone := (memoryHandler pipeline).demonic_monotone fun _ => True
  have retrying {world : MemoryWorld} (settled : Settled world) (ts : String) :
      (pipeline.processCounted stream message ts).wp (inMemory pipeline)
        (fun _ after => Settled after) world := by
    rw [EventPipeline.processCounted]
    cases pipeline.retryCount message.data with
    | error error => exact settled
    | ok retryCount =>
        rw [Program.wp_bind, Program.wp_attempt]
        refine Program.wp_mono monotone (fun outcome after settled => ?_)
          (settled.wp_processMessage stream message _ _ ts)
        cases outcome with
        | ok _ => exact settled
        | error failure =>
            exact settled.wp_keep (keepsRows_handleFailure stream message _ retryCount failure)
              fun _ _ settled => settled
  rw [EventPipeline.processWithRetry_eq]
  split
  · exact retrying settled _
  · rw [Program.wp_bind, pipe, Program.wp_perform]
    exact fun choice _ => retrying (settled.keep (by trivial) choice) _

theorem Settled.wp_processAll (settled : Settled world) (stream : String)
    (messages : List Message) :
    (pipeline.processAll stream messages).wp (inMemory pipeline) (fun _ after => Settled after)
      world := by
  induction messages generalizing world with
  | nil => exact settled
  | cons message rest induction =>
      rw [EventPipeline.processAll, Program.bind_eq_bind, Program.wp_bind]
      refine Program.wp_mono ((memoryHandler pipeline).demonic_monotone fun _ => True)
        (fun outcome after settled => ?_) (settled.wp_processWithRetry stream message)
      cases outcome with
      | error failure => exact settled
      | ok _ => exact induction settled

theorem Settled.wp_pollStreams (settled : Settled world) (streams : List String) :
    (pipeline.pollStreams streams).wp (inMemory pipeline) (fun _ after => Settled after) world := by
  induction streams generalizing world with
  | nil => exact settled
  | cons stream rest induction =>
      rw [EventPipeline.pollStreams, Program.bind_eq_bind, Program.wp_bind, pipe,
        Program.wp_perform]
      intro choice _
      change Program.wp _ (if choice.1.running then _ else _) _ _
      have settled := @Settled.keep pipeline _ settled .isRunning (by trivial) choice
      split
      · rw [Program.bind_eq_bind, Program.wp_bind, pipe, Program.wp_perform]
        intro choice _
        change Program.wp _ (_ >>= _) _ _
        rw [Program.bind_eq_bind, Program.wp_bind]
        have delivered := @Settled.keep pipeline _ settled (.consume stream) (by trivial) choice
        refine Program.wp_mono ((memoryHandler pipeline).demonic_monotone fun _ => True)
          (fun outcome after settled => ?_) (delivered.wp_processAll stream choice.1.messages)
        cases outcome with
        | error failure => exact settled
        | ok _ => exact induction settled
      · exact settled

theorem Settled.wp_run (settled : Settled world) (rounds : ℕ) :
    (pipeline.run rounds).wp (inMemory pipeline) (fun _ after => Settled after) world := by
  induction rounds generalizing world with
  | zero => exact settled
  | succ rounds induction =>
      rw [EventPipeline.run, Program.bind_eq_bind, Program.wp_bind, pipe, Program.wp_perform]
      intro choice _
      change Program.wp _ (if choice.1.running then _ else _) _ _
      have settled := @Settled.keep pipeline _ settled .isRunning (by trivial) choice
      split
      · rw [Program.bind_eq_bind, Program.wp_bind]
        refine Program.wp_mono ((memoryHandler pipeline).demonic_monotone fun _ => True)
          (fun outcome after settled => ?_) (settled.wp_pollStreams streams)
        cases outcome with
        | error failure => exact settled
        | ok _ => exact induction settled
      · exact settled

end

/-! ## Rows of an event -/

/-- The buckets, one after another. -/
def Buckets.all (buckets : Buckets) : List (List EventRow) :=
  [buckets.agentLogs, buckets.orders, buckets.gradeHistory, buckets.vectorMemory,
    buckets.tradeFeed, buckets.eventHistory]

/-- No bucket has two rows that an event went into. -/
def Buckets.AtMostOneRow (buckets : Buckets) : Prop :=
  ∀ rows ∈ buckets.all, ∀ msgId, rows.countP (fun row => decide (msgId ∈ row.sources)) ≤ 1

theorem eventIds_eq {buckets : Buckets} {attempted : List String}
    (feeds : Feeds buckets attempted) :
    eventIds buckets.eventHistory = lastItems 1000 attempted := by
  have flat (msgIds : List String) : (msgIds.map fun msgId => [msgId]).flatten = msgIds := by
    induction msgIds with
    | nil => rfl
    | cons msgId msgIds induction => rw [List.map_cons, List.flatten_cons, induction]; rfl
  rw [eventIds, List.flatMap_def, feeds, lastItems_map, flat]

theorem Settled.bounded {world : MemoryWorld} (settled : Settled world) :
    ∀ rows ∈ world.buckets.all, Bounded rows world.attempted := by
  have fed : Bounded world.buckets.eventHistory world.attempted := by
    intro msgId
    rw [eventIds_eq settled.feed]
    exact (lastItems_sublist 1000 _).count_le msgId
  obtain ⟨agentLogs, orders, gradeHistory, vectorMemory, tradeFeed⟩ := settled.own
  simp [Buckets.all, agentLogs, orders, gradeHistory, vectorMemory, tradeFeed, fed]

theorem Settled.atMostOneRow {world : MemoryWorld} (settled : Settled world)
    (once : world.attempted.Nodup) : world.buckets.AtMostOneRow := by
  intro rows member msgId
  calc rows.countP (fun row => decide (msgId ∈ row.sources))
      ≤ (eventIds rows).count msgId := countP_le_count rows msgId
    _ ≤ world.attempted.count msgId := settled.bounded rows member msgId
    _ ≤ 1 := List.nodup_iff_count_le_one.mp once msgId

/-- Two rows of the feed tell two events apart where no event has two. -/
theorem Settled.nodup {world : MemoryWorld} (settled : Settled world)
    (atMostOne : world.buckets.AtMostOneRow) : (lastItems 1000 world.attempted).Nodup := by
  rw [List.nodup_iff_count_le_one]
  intro msgId
  have counted := atMostOne world.buckets.eventHistory (by simp [Buckets.all]) msgId
  have same : world.buckets.eventHistory.countP (fun row => decide (msgId ∈ row.sources)) =
      (world.buckets.eventHistory.map (·.sources)).countP
        (fun sources => decide (msgId ∈ sources)) := by
    rw [List.countP_map]
    rfl
  rw [same, settled.feed, lastItems_map, List.countP_map] at counted
  rw [List.count]
  refine Nat.le_trans (List.countP_mono_left fun other _ equal => ?_) counted
  have same : other = msgId := eq_of_beq equal
  simp [same]

/-- While no event is taken up twice, no event has two rows in a bucket; and where none has, no
event of the feed was taken up twice. -/
theorem persisted_once (pipeline : EventPipeline) (rounds : ℕ)
    (choices : ℕ → PipelineChoice × ℚ) :
    let world := ((pipeline.run rounds).exec (memoryHandler pipeline) choices {}).2
    (world.attempted.Nodup → world.buckets.AtMostOneRow) ∧
      (world.buckets.AtMostOneRow → (lastItems 1000 world.attempted).Nodup) := by
  have start : Settled {} := by
    refine ⟨?_, ⟨?_, ?_, ?_, ?_, ?_⟩⟩
    · simp [Feeds, lastItems]
    all_goals exact fun msgId => Nat.le_refl 0
  have settled := Handler.exec_of_wp (@Settled.wp_run pipeline _ start rounds) choices
    fun _ => trivial
  exact ⟨settled.atMostOneRow, settled.nodup⟩

/-! ## A failed broadcast -/

/-- A pipeline that reads the whole numbers in texts. -/
def countingPipeline : EventPipeline :=
  { plainPipeline with
    runtime := { plainPipeline.runtime with
      parseInt := fun text =>
        if text ≠ "" ∧ text.toList.all Char.isDigit then some (Nat.ofDigitChars 10 text.toList 0)
        else none } }

def order : Dict String Value :=
  [("msg_id", .str "order-1"), ("timestamp", .str "2026-01-05"), ("side", .str "buy")]

def retriedOrder : Message := ⟨"2-0", Dict.set "retry_count" (.str "1") order⟩

/-- The order is delivered, and again in the second round, which starts one operation earlier where
the broadcast succeeds. -/
def deliveredOrder (raises : Option String) : ℕ → PipelineChoice × ℚ
  | 12 => ({ messages := [⟨"1-0", order⟩] }, 0)
  | 17 => ({ raises := raises }, 0)
  | 64 => ({ messages := [retriedOrder] }, 1)
  | 65 => ({ messages := [retriedOrder] }, 1)
  | _ => ({}, 0)

/-- The broadcast fails after the order is stored, and the retried copy is stored again. -/
theorem retried_order_twice :
    ¬((countingPipeline.run 2).exec (memoryHandler countingPipeline)
      (deliveredOrder (some "closed")) {}).2.buckets.AtMostOneRow := by
  intro atMostOne
  have two : ((countingPipeline.run 2).exec (memoryHandler countingPipeline)
      (deliveredOrder (some "closed")) {}).2.buckets.orders.countP
        (fun row => decide ("order-1" ∈ row.sources)) = 2 := by
    decide +kernel
  have one := atMostOne _ (.tail _ (.head _)) "order-1"
  rw [two] at one
  exact absurd one (by decide)

/-- Without the failure, the copy is a duplicate. -/
theorem broadcast_order_once :
    ((countingPipeline.run 2).exec (memoryHandler countingPipeline) (deliveredOrder none)
      {}).2.buckets.AtMostOneRow :=
  (persisted_once countingPipeline 2 (deliveredOrder none)).1 (by decide +kernel)

end TradingControl.Dashboard
