import TradingControl.Execution.OrderSlots
import TradingControl.Execution.Redelivery

/-!
# At most one fill per decision

The database path asks the orders table whether a decision is new, the in-memory path asks a Redis
key, and neither asks the other's.  Deliveries of one decision, interleaved at every await point,
call the broker once at most as long as no delivery goes ahead on one store while the other one
holds the decision, and nothing fails between the broker call and the commit.
-/

namespace TradingControl

open Effects Python Engine

/-! ## The key of a decision -/

def Decision.orderSymbol (data : Decision) : String := orDefault data.symbol ""

/-- Idempotency key of every order made from a decision that carries a strategy and a timestamp. -/
def Decision.orderKey (config : Config) (data : Decision) : String :=
  buildIdempotencyKey config (orDefault data.strategyId "") data.orderSymbol data.sideOrAction
    ((data.timestamp.bind config.utcMinute).getD "") data

/-- The order belongs to the decision. -/
def OrderOf (config : Config) (data : Decision) (order : Order) : Prop :=
  order.idempotencyKey = data.orderKey config ∧ order.symbol = data.orderSymbol

section Key

variable {config : Config} {data : Decision} {strategyId raw : String}

theorem returns_parseAndValidate (named : data.strategyId = some strategyId)
    (nonempty : strategyId ≠ "") :
    (parseAndValidate config data).Returns fun accepted => ∀ parsed, accepted = some parsed →
      parsed.symbol = data.orderSymbol ∧ parsed.side = data.sideOrAction ∧
        parsed.strategyId = orDefault data.strategyId "" := by
  refine Program.returns_bind_any fun freshStrategyId => Program.returns_bind_any fun freshTraceId => ?_
  cases result : parseDecisionFields freshStrategyId freshTraceId data with
  | error error => exact fun _ impossible => by cases impossible
  | ok parsed =>
      obtain ⟨symbol, side, -, -, strategy⟩ := parseDecisionFields_fields result
      refine Program.returns_bind_any fun blocked => ?_
      cases blocked with
      | true => exact fun _ impossible => by cases impossible
      | false =>
          rintro _ ⟨⟩
          refine ⟨symbol, side, ?_⟩
          rw [strategy, named]
          simp [orDefault, nonempty]

theorem returns_parseTimestamp (stamped : data.timestamp = some raw) :
    (parseTimestamp config data).Returns fun minute =>
      minute = (data.timestamp.bind config.utcMinute).getD "" := by
  simp only [parseTimestamp, stamped, Option.bind_some]
  cases config.utcMinute raw with
  | none => trivial
  | some minute => rfl

/-- Every order made from the decision carries its key. -/
theorem returns_prepareOrder (named : data.strategyId = some strategyId)
    (nonempty : strategyId ≠ "") (stamped : data.timestamp = some raw) :
    (prepareOrder config data).Returns fun prepared =>
      ∀ order, prepared = some order → OrderOf config data order := by
  refine Program.returns_bind (returns_parseAndValidate named nonempty) fun accepted origin => ?_
  cases accepted with
  | none => exact fun _ impossible => by cases impossible
  | some parsed =>
      obtain ⟨symbol, side, strategy⟩ := origin parsed rfl
      refine Program.returns_bind_any fun atr => Program.returns_bind_any fun pct =>
        Program.returns_bind_any fun gate => ?_
      cases gate with
      | some reason => exact fun _ impossible => by cases impossible
      | none =>
          refine Program.returns_bind_any fun qty =>
            Program.returns_bind (returns_parseTimestamp stamped) fun minute equality => ?_
          rintro _ ⟨⟩
          exact ⟨by rw [Decision.orderKey, symbol, side, strategy, equality], symbol⟩

end Key

/-! ## The slots of an order -/

def World.slots (key symbol : String) (world : World) : OrderSlots where
  marked := (world.redis (.orderDedup key)).isSome
  locked := (world.redis (.orderLock symbol)).isSome
  committed := (world.db.findOrder key).isSome
  fills := world.submitted.length

theorem slots_of_steady {key symbol : String} {before after : World} (steady : Steady before after) :
    after.slots key symbol = before.slots key symbol := by
  simp only [World.slots, steady.orderDedup, steady.orderLock, Database.findOrder, steady.orders,
    steady.submitted]

/-- Operations that leave the slots of an order alone. -/
def EngineOp.KeepsSlots (key symbol : String) (op : EngineOp) : Prop :=
  ∀ choice world, (engineHandler op choice world).2.slots key symbol = world.slots key symbol

theorem keepsSlots_of_quiet {key symbol : String} {op : EngineOp} (quiet : op.Quiet) :
    op.KeepsSlots key symbol :=
  fun choice world => slots_of_steady (steady_of_quiet quiet choice world)

/-- The row of an order stays in the table whatever is committed. -/
theorem findOrder_apply {key : String} {db : Database} (held : (db.findOrder key).isSome)
    (write : Write) : ((write.apply db).findOrder key).isSome := by
  rw [Database.findOrder] at held ⊢
  rw [List.find?_isSome] at held ⊢
  obtain ⟨row, member, own⟩ := held
  cases write with
  | insertOrder row' => exact ⟨row, List.mem_append_left _ member, own⟩
  | updateOrder id status brokerOrderId fillPrice =>
      refine ⟨_, List.mem_map_of_mem member, ?_⟩
      by_cases same : row.id = id
      · simpa [same] using own
      · simpa [same] using own
  | _ => exact ⟨row, member, own⟩

theorem findOrder_view {key : String} {db : Database} (held : (db.findOrder key).isSome)
    (session : Session) : ((db.view session).findOrder key).isSome := by
  induction session generalizing db with
  | nil => exact held
  | cons write session induction => exact induction (findOrder_apply held write)

/-- Committing a transaction that inserts the order leaves its row in the table. -/
theorem findOrder_view_of_insert {row : OrderRow} {session : Session}
    (inserts : .insertOrder row ∈ session) (db : Database) :
    ((db.view session).findOrder row.idempotencyKey).isSome := by
  obtain ⟨first, last, rfl⟩ := List.append_of_mem inserts
  rw [Database.view, List.foldl_append]
  refine findOrder_view ?_ last
  rw [Database.findOrder]
  rw [List.find?_isSome]
  exact ⟨row, List.mem_append_right _ (List.mem_singleton_self row), by simp⟩

/-! ## Stores that agree -/

/-- The delivery is about to mark the decision. -/
def marksOrder (key : String) : Option EngineOp → Bool
  | some (.redis (.setnx (.orderDedup marked) _)) => marked = key
  | _ => false

def asksLock (symbol : String) : Option EngineOp → Bool
  | some (.redis (.setnx (.orderLock locked) _)) => locked = symbol
  | _ => false

/-- The delivery is about to insert the pending row. -/
def insertsOrder (key : String) : Option EngineOp → Bool
  | some (.database _ (.insertOrder inserted)) => inserted = key
  | _ => false

def Write.RecordsFill : Write → Bool
  | .updateOrder _ _ _ _ => true
  | _ => false

/-- The statement records a fill, or stands between that and the commit. -/
def recordsFill : Option EngineOp → Bool
  | some (.database _ (.execute (.updateOrder _ _ _ _))) => true
  | some (.database session _) => session.any Write.RecordsFill
  | _ => false

def Key.Brokered : Key → Bool
  | .paperCash => true
  | .paperPosition _ => true
  | .paperOrder _ => true
  | _ => false

/-- The delivery is about to read or write what the broker holds. -/
def callsBroker : Option EngineOp → Bool
  | some (.redis command) => command.key.Brokered
  | _ => false

variable {ι : Type}

/-- No delivery goes ahead on one store while the other one holds the decision, and nothing fails
between the broker call and the commit. -/
structure StoresAgree (key symbol : String) (world : World) (pending : ι → Option EngineOp) (i : ι)
    (choice : Choice) : Prop where
  /-- The in-memory path marks the decision only while no row is committed. -/
  mark : marksOrder key (pending i) → (world.slots key symbol).marked = false →
    (world.slots key symbol).committed = false
  /-- The lock is not taken for a decision that is marked and committed. -/
  lock : asksLock symbol (pending i) → (world.slots key symbol).locked = false →
    (world.slots key symbol).marked → (world.slots key symbol).committed = false
  /-- The database path inserts the row only while the decision is not marked. -/
  insert : insertsOrder key (pending i) → choice.dbFails = false →
    (world.slots key symbol).marked = false
  /-- The statements that record a fill succeed. -/
  record : recordsFill (pending i) → choice.dbFails = false
  /-- Redis answers the broker while the symbol is locked. -/
  broker : callsBroker (pending i) → (world.slots key symbol).locked → choice.redisFails = false

instance (key symbol : String) (world : World) (pending : ι → Option EngineOp) (i : ι)
    (choice : Choice) : Decidable (StoresAgree key symbol world pending i choice) :=
  decidable_of_iff
    ((marksOrder key (pending i) → (world.slots key symbol).marked = false →
        (world.slots key symbol).committed = false) ∧
      (asksLock symbol (pending i) → (world.slots key symbol).locked = false →
        (world.slots key symbol).marked → (world.slots key symbol).committed = false) ∧
      (insertsOrder key (pending i) → choice.dbFails = false →
        (world.slots key symbol).marked = false) ∧
      (recordsFill (pending i) → choice.dbFails = false) ∧
      (callsBroker (pending i) → (world.slots key symbol).locked → choice.redisFails = false))
    ⟨fun ⟨mark, lock, insert, record, broker⟩ => ⟨mark, lock, insert, record, broker⟩,
      fun ⟨mark, lock, insert, record, broker⟩ => ⟨mark, lock, insert, record, broker⟩⟩

/-- Deliveries of one decision: the broker is called once at most from the start on. -/
def fillProtocol (ι : Type) (before : ℕ) (key symbol : String) :
    Protocol engineSignature World ι DeliveryPhase where
  invariant world phases := AtMostOnce before (world.slots key symbol) phases
  matches_ _ _ := True

variable [DecidableEq ι] {before : ℕ} {key symbol : String} {i : ι}

/-- What a step of a delivery guarantees under the protocol. -/
abbrev fillTransformer (before : ℕ) (key symbol : String) (i : ι) :
    Transformer engineSignature Failure DeliveryPhase :=
  (fillProtocol ι before key symbol).transformer engineHandler (StoresAgree key symbol) i

omit [DecidableEq ι] in
theorem stable_of_keepsSlots {op : EngineOp} (keeps : op.KeepsSlots key symbol)
    (phase : DeliveryPhase) : (fillProtocol ι before key symbol).Stable engineHandler i phase op where
  matched := trivial
  kept world phases choice once _ := by
    have once : AtMostOnce before (world.slots key symbol) phases := once
    rw [← keeps choice world] at once
    exact once

omit [DecidableEq ι] in
theorem stable_of_quiet {α : Type} {program : Engine α} (quiet : program.Quiet)
    (phase : DeliveryPhase) :
    program.Calls ((fillProtocol ι before key symbol).Stable engineHandler i phase) :=
  quiet.mono fun _ quiet => stable_of_keepsSlots (keepsSlots_of_quiet quiet) phase

/-- A Redis command under the protocol: it fails, or it is answered and moves the slots. -/
theorem transformer_redis {command : KeyValue.Command Key.Value} {phase : DeliveryPhase}
    {post : Except Failure command.Answer → DeliveryPhase → Prop}
    (failed : post (.error .redisError) phase)
    (answered : ∀ (world : World) phases pending, AtMostOnce before (world.slots key symbol) phases →
      phases i = phase → pending i = some (.redis command) →
      (∃ choice, StoresAgree key symbol world pending i choice) →
      ∃ phase', AtMostOnce before
          (({ world with redis := command.apply world.redis } : World).slots key symbol)
          (Function.update phases i phase') ∧ post (.ok (command.answer world.redis)) phase') :
    fillTransformer before key symbol i (.redis command) post phase := by
  refine ⟨trivial, fun world phases pending choice once own isPending _ agree => ?_⟩
  by_cases fails : choice.redisFails = true
  · refine ⟨phase, ?_, by simpa [engineHandler, fails] using failed⟩
    rw [← own, Function.update_eq_self]
    simpa [engineHandler, fails] using once
  · have effect : engineHandler (.redis command) choice world =
        (.ok (command.answer world.redis), { world with redis := command.apply world.redis }) := by
      simp [engineHandler, fails]
    rw [effect]
    exact answered world phases pending once own isPending ⟨choice, agree⟩

theorem wp_mark {post : Except Failure Bool → DeliveryPhase → Prop}
    (failed : post (.error .redisError) .idle) (seen : post (.ok false) .idle)
    (unseen : post (.ok true) .claimed) :
    (redisSetnx (.orderDedup key) "1").wp (fillTransformer before key symbol i) post .idle := by
  rw [redisSetnx, Program.wp_perform]
  refine transformer_redis failed fun world phases pending once own isPending admitted => ?_
  obtain ⟨choice, agree⟩ := admitted
  have moved : ({ world with
      redis := (KeyValue.Command.setnx (.orderDedup key) "1").apply world.redis } : World) =
        world.writeOnce (.orderDedup key) "1" := rfl
  rw [moved]
  cases held : world.redis (.orderDedup key) with
  | some mark =>
      refine ⟨.idle, ?_, by simpa [KeyValue.Command.answer, held] using seen⟩
      rw [World.writeOnce_of_some _ held, ← own, Function.update_eq_self]
      exact once
  | none =>
      refine ⟨.claimed, ?_, by simpa [KeyValue.Command.answer, held] using unseen⟩
      have unmarked : (world.slots key symbol).marked = false := by simp [World.slots, held]
      have marks : marksOrder key (pending i) = true := by simp [isPending, marksOrder]
      have claimed := once.claim own unmarked (agree.mark marks unmarked)
      rw [World.writeOnce_of_none _ _ held]
      simpa [World.slots] using claimed

/-- Asking for the lock, before or after the decision is marked. -/
theorem wp_lock {value : String} {phase next : DeliveryPhase}
    {post : Except Failure Bool → DeliveryPhase → Prop}
    (takes : phase = .idle ∧ next = .locked ∨ phase = .claimed ∧ next = .claimedLocked)
    (failed : post (.error .redisError) phase) (held : post (.ok false) phase)
    (free : post (.ok true) next) :
    (redisSetnx (.orderLock symbol) value).wp (fillTransformer before key symbol i) post phase := by
  rw [redisSetnx, Program.wp_perform]
  refine transformer_redis failed fun world phases pending once own isPending admitted => ?_
  obtain ⟨choice, agree⟩ := admitted
  have moved : ({ world with
      redis := (KeyValue.Command.setnx (.orderLock symbol) value).apply world.redis } : World) =
        world.writeOnce (.orderLock symbol) value := rfl
  rw [moved]
  cases taken : world.redis (.orderLock symbol) with
  | some holder =>
      refine ⟨phase, ?_, by simpa [KeyValue.Command.answer, taken] using held⟩
      rw [World.writeOnce_of_some _ taken, ← own, Function.update_eq_self]
      exact once
  | none =>
      refine ⟨next, ?_, by simpa [KeyValue.Command.answer, taken] using free⟩
      have unlocked : (world.slots key symbol).locked = false := by simp [World.slots, taken]
      have asks : asksLock symbol (pending i) = true := by simp [isPending, asksLock]
      rw [World.writeOnce_of_none _ _ taken]
      rcases takes with ⟨rfl, rfl⟩ | ⟨rfl, rfl⟩
      · simpa [World.slots] using once.lock own unlocked
      · simpa [World.slots] using once.lockClaimed own unlocked (agree.lock asks unlocked)

/-- Releasing the lock without a fill left to record. -/
theorem wp_unlock {phase : DeliveryPhase} {post : Except Failure Unit → DeliveryPhase → Prop}
    (holds : phase.HoldsLock) (unfilled : phase ≠ .filled)
    (failed : post (.error .redisError) phase) (released : post (.ok ()) .idle) :
    (redisDelete (.orderLock symbol)).wp (fillTransformer before key symbol i) post phase := by
  rw [redisDelete, Program.wp_perform]
  refine transformer_redis failed fun world phases pending once own _ _ => ?_
  refine ⟨.idle, ?_, released⟩
  rw [← own] at holds unfilled
  have unlocked := once.unlock holds unfilled
  have moved : ({ world with
      redis := (KeyValue.Command.delete (.orderLock symbol)).apply world.redis } : World) =
        world.erase (.orderLock symbol) := rfl
  rw [moved]
  simpa [World.slots] using unlocked

/-- Inserting the pending row, which fails where a row with the key is committed. -/
theorem wp_insertOrder {post : Except Failure ℕ → DeliveryPhase → Prop}
    (failed : ∀ error, post (.error error) .locked) (inserted : ∀ id, post (.ok id) .inserted) :
    Program.wp (α := no_index ℕ) (fillTransformer before key symbol i)
      (database [] (.insertOrder key)) post .locked := by
  rw [database, Program.wp_perform]
  refine ⟨trivial, fun world phases pending choice once own isPending _ agree => ?_⟩
  have once : AtMostOnce before (world.slots key symbol) phases := once
  have stays : ∀ choice, AtMostOnce before
      ((engineHandler (.database [] (.insertOrder key)) choice world).2.slots key symbol)
      (Function.update phases i .locked) := by
    intro choice
    have quiet : (EngineOp.database [] (.insertOrder key)).Quiet := trivial
    rw [keepsSlots_of_quiet quiet choice world, ← own, Function.update_eq_self]
    exact once
  by_cases fails : choice.dbFails = true
  · exact ⟨.locked, stays choice, by simpa [engineHandler, fails] using failed _⟩
  cases committed : world.db.findOrder key with
  | some row =>
      refine ⟨.locked, stays choice, ?_⟩
      simpa [engineHandler, fails, Statement.run, Database.view, committed] using failed _
  | none =>
      refine ⟨.inserted, ?_, ?_⟩
      · have inserts : insertsOrder key (pending i) = true := by simp [isPending, insertsOrder]
        have unmarked := agree.insert inserts (by simpa using fails)
        have moved := once.insert own unmarked (by simp [World.slots, committed])
        have quiet : (EngineOp.database [] (.insertOrder key)).Quiet := trivial
        rwa [← keepsSlots_of_quiet quiet choice world] at moved
      · simpa [engineHandler, fails, Statement.run, Database.view, committed] using inserted _

/-- Handing the order to the broker. -/
theorem wp_submit {order : Submission} {phase next : DeliveryPhase}
    {post : Except Failure Unit → DeliveryPhase → Prop}
    (submits : phase = .claimedLocked ∧ next = .locked ∨ phase = .inserted ∧ next = .filled)
    (submitted : post (.ok ()) next) :
    (tradesSubmitted order).wp (fillTransformer before key symbol i) post phase := by
  rw [tradesSubmitted, Program.wp_perform]
  refine ⟨trivial, fun world phases pending choice once own _ _ _ => ⟨next, ?_, submitted⟩⟩
  have once : AtMostOnce before (world.slots key symbol) phases := once
  rw [← own] at submits
  have moved := once.submit submits
  simpa [fillProtocol, engineHandler, World.slots, Database.findOrder] using moved

/-! ## Between the broker call and the commit -/

omit [DecidableEq ι] in
theorem stable_commit (session : Session) (phase : DeliveryPhase) :
    (fillProtocol ι before key symbol).Stable engineHandler i phase
      (.database session .commit) where
  matched := trivial
  kept world phases choice once _ := by
    have once : AtMostOnce before (world.slots key symbol) phases := once
    by_cases fails : choice.dbFails = true
    · simpa [fillProtocol, engineHandler, fails] using once
    · have kept := once.commitRow ((world.db.view session).findOrder key).isSome
        fun held => findOrder_view held session
      simpa [fillProtocol, engineHandler, fails, World.slots, Statement.run] using kept

/-- A transaction that inserts the order and records its fill. -/
structure RecordsOrder (key : String) (session : Session) : Prop where
  inserts : ∃ row, .insertOrder row ∈ session ∧ row.idempotencyKey = key
  records : session.any Write.RecordsFill = true

theorem RecordsOrder.append {session : Session} (records : RecordsOrder key session)
    (write : Write) : RecordsOrder key (session ++ [write]) := by
  obtain ⟨⟨row, member, own⟩, records⟩ := records
  exact ⟨⟨row, List.mem_append_left _ member, own⟩, by simp [records]⟩

theorem wp_bind_commitOrder {β : Type} {session : Session} (records : RecordsOrder key session)
    {rest : Unit → Engine β} {finish : Except Failure β → DeliveryPhase → Prop}
    (continues : (rest ()).wp (fillTransformer before key symbol i) finish .locked) :
    (Program.bind (α := no_index Unit) (database session .commit) rest).wp
      (fillTransformer before key symbol i) finish .filled := by
  refine ⟨trivial, fun world phases pending choice once own isPending _ agree => ?_⟩
  have once : AtMostOnce before (world.slots key symbol) phases := once
  have succeeds : choice.dbFails = false :=
    agree.record (by simp [isPending, recordsFill, records.records])
  have effect : engineHandler (.database session .commit) choice world =
      (.ok (), world.commit session) := by
    simp [engineHandler, succeeds, Statement.run, World.commit]
  rw [effect]
  refine ⟨.locked, ?_, continues⟩
  obtain ⟨row, member, rfl⟩ := records.inserts
  have moved := once.commit own
  simpa [fillProtocol, World.slots, findOrder_view_of_insert member] using moved

/-- An operation that the protocol answers while the delivery holds the lock. -/
abbrev AnsweredUnderLock (ι : Type) (before : ℕ) (key symbol : String) (i : ι)
    (phase : DeliveryPhase) : EngineOp → Prop :=
  (fillProtocol ι before key symbol).Answered engineHandler (StoresAgree key symbol) i phase

section Answered

variable {phase : DeliveryPhase}

omit [DecidableEq ι] in
theorem answered_broker (holds : phase.HoldsLock) {command : KeyValue.Command Key.Value}
    (broker : command.key.Brokered) :
    AnsweredUnderLock ι before key symbol i phase (.redis command) where
  toStable := by
    refine stable_of_keepsSlots (fun choice world => ?_) phase
    by_cases fails : choice.redisFails = true
    · simp [engineHandler, fails]
    · have other : ∀ guard : Key, guard.Brokered = false →
          command.apply world.redis guard = world.redis guard := by
        intro guard unbrokered
        refine command.apply_other world.redis ?_
        rintro rfl
        simp [broker] at unbrokered
      simp [engineHandler, fails, World.slots, other (.orderDedup key) rfl, other (.orderLock symbol) rfl]
  answered world phases pending choice once own isPending agree := by
    have once : AtMostOnce before (world.slots key symbol) phases := once
    rw [← own] at holds
    have answers : choice.redisFails = false :=
      agree.broker (by simp [isPending, callsBroker, broker]) (once.locked i holds)
    exact ⟨command.answer world.redis, by simp [engineHandler, answers]⟩

omit [DecidableEq ι] in
theorem answered_record {session : Session} {statement : Statement}
    (records : recordsFill (some (.database session statement)) = true)
    (quiet : (EngineOp.database session statement).Quiet)
    (answers : ∀ db, ∃ answer, (statement.run session db).1 = .ok answer) :
    AnsweredUnderLock ι before key symbol i phase (.database session statement) where
  toStable := stable_of_keepsSlots (keepsSlots_of_quiet quiet) phase
  answered world phases pending choice _ _ isPending agree := by
    have succeeds : choice.dbFails = false := agree.record (by rw [isPending]; exact records)
    simpa [engineHandler, succeeds] using answers world.db

omit [DecidableEq ι] in
/-- Clocks and random draws always answer. -/
theorem answered_draw {op : EngineOp} (quiet : op.Quiet)
    (draws : ∀ choice world, ∃ answer, (engineHandler op choice world).1 = .ok answer) :
    AnsweredUnderLock ι before key symbol i phase op where
  toStable := stable_of_keepsSlots (keepsSlots_of_quiet quiet) phase
  answered world _ _ choice _ _ _ _ := draws choice world

omit [DecidableEq ι] in
theorem succeeds_redisGet (holds : phase.HoldsLock) {key' : Key} (broker : key'.Brokered) :
    Program.Succeeds (AnsweredUnderLock ι before key symbol i phase) (fun _ => True)
      (redisGet key') := by
  have answered : AnsweredUnderLock ι before key symbol i phase (.redis (.get key')) :=
    answered_broker holds broker
  exact Program.succeeds_perform (S := engineSignature) answered

omit [DecidableEq ι] in
theorem succeeds_redisSetnx (holds : phase.HoldsLock) {key' : Key} (broker : key'.Brokered)
    (value : key'.Value) :
    Program.Succeeds (AnsweredUnderLock ι before key symbol i phase) (fun _ => True)
      (redisSetnx key' value) := by
  have answered : AnsweredUnderLock ι before key symbol i phase (.redis (.setnx key' value)) :=
    answered_broker holds broker
  exact Program.succeeds_perform (S := engineSignature) answered

omit [DecidableEq ι] in
theorem succeeds_redisSet (holds : phase.HoldsLock) {key' : Key} (broker : key'.Brokered)
    (value : key'.Value) :
    Program.Succeeds (AnsweredUnderLock ι before key symbol i phase) (fun _ => True)
      (redisSet key' value) := by
  have answered : AnsweredUnderLock ι before key symbol i phase (.redis (.set key' value)) :=
    answered_broker holds broker
  exact Program.succeeds_perform (S := engineSignature) answered

omit [DecidableEq ι] in
theorem succeeds_getPosition (holds : phase.HoldsLock) (symbol' : String) :
    (PaperBroker.getPosition symbol').Succeeds (AnsweredUnderLock ι before key symbol i phase)
      fun _ => True :=
  Program.succeeds_bind (succeeds_redisGet holds rfl) fun _ _ => trivial

omit [DecidableEq ι] in
theorem succeeds_getCash (holds : phase.HoldsLock) :
    PaperBroker.getCash.Succeeds (AnsweredUnderLock ι before key symbol i phase) fun _ => True :=
  Program.succeeds_bind (succeeds_redisSetnx holds rfl _) fun _ _ =>
    Program.succeeds_bind (succeeds_redisGet holds rfl) fun _ _ => trivial

omit [DecidableEq ι] in
theorem succeeds_draws :
    (Program.Succeeds (AnsweredUnderLock ι before key symbol i phase) (fun _ => True) uniform) ∧
      (Program.Succeeds (AnsweredUnderLock ι before key symbol i phase) (fun _ => True) utcNow) ∧
      Program.Succeeds (AnsweredUnderLock ι before key symbol i phase) (fun _ => True) uuid4 := by
  have answered : ∀ op : EngineOp, op.Quiet →
      (∀ choice world, ∃ answer, (engineHandler op choice world).1 = .ok answer) →
      AnsweredUnderLock ι before key symbol i phase op := fun _ => answered_draw
  exact ⟨Program.succeeds_perform (S := engineSignature) (answered .uniform trivial fun _ _ => ⟨_, rfl⟩),
    Program.succeeds_perform (S := engineSignature) (answered .utcNow trivial fun _ _ => ⟨_, rfl⟩),
    Program.succeeds_perform (S := engineSignature) (answered .uuid4 trivial fun _ _ => ⟨_, rfl⟩)⟩

end Answered

/-- A delivery that holds the lock hands its order to the broker, which fills it. -/
theorem wp_bind_placeOrder {β : Type} {phase next : DeliveryPhase}
    (submits : phase = .claimedLocked ∧ next = .locked ∨ phase = .inserted ∧ next = .filled)
    (round8 : ℚ → ℚ) (symbol' side : String) (qty price : ℚ) {rest : BrokerOrder → Engine β}
    {finish : Except Failure β → DeliveryPhase → Prop}
    (continues : ∀ receipt,
      (rest receipt).wp (fillTransformer before key symbol i) finish next) :
    ((PaperBroker.placeOrder round8 symbol' side qty price).bind rest).wp
      (fillTransformer before key symbol i) finish phase := by
  have holds : next.HoldsLock := by
    rcases submits with ⟨-, rfl⟩ | ⟨-, rfl⟩
    · simp [DeliveryPhase.HoldsLock]
    · simp [DeliveryPhase.HoldsLock]
  rw [PaperBroker.placeOrder]
  rw [Program.bind_eq_bind, Program.bind_assoc, Program.wp_bind]
  refine wp_submit submits ?_
  rw [Program.andThen_ok]
  refine Protocol.wp_bind_succeeds (?_ : Program.Succeeds _ (fun _ => True) _)
    fun receipt _ => continues receipt
  obtain ⟨uniform, utcNow, uuid4⟩ : _ ∧ _ ∧ _ := @succeeds_draws ι before key symbol i next
  refine Program.succeeds_bind (succeeds_redisSetnx holds rfl _) fun _ _ => ?_
  refine Program.succeeds_bind uniform fun slippage _ => ?_
  refine Program.succeeds_bind (succeeds_getCash holds) fun cash _ => ?_
  refine Program.succeeds_bind (succeeds_redisSet holds rfl _) fun _ _ => ?_
  refine Program.succeeds_bind (succeeds_getPosition holds _) fun current _ => ?_
  refine Program.succeeds_bind utcNow fun now _ => ?_
  refine Program.succeeds_bind (succeeds_redisSet holds rfl _) fun _ _ => ?_
  refine Program.succeeds_bind uuid4 fun brokerOrderId _ => ?_
  exact Program.succeeds_bind (succeeds_redisSet holds rfl _) fun _ _ => trivial

section Transaction

variable {session : Session}

/-- Programs that succeed between the broker call and the commit. -/
abbrev SucceedsFilled (ι : Type) (before : ℕ) (key symbol : String) (i : ι) {α : Type}
    (program : Engine α) (property : α → Prop) : Prop :=
  program.Succeeds (AnsweredUnderLock ι before key symbol i .filled) property

omit [DecidableEq ι] in
theorem succeeds_statement (records : RecordsOrder key session) {statement : Statement}
    (quiet : (EngineOp.database session statement).Quiet)
    (answers : ∀ db, ∃ answer, (statement.run session db).1 = .ok answer) :
    SucceedsFilled ι before key symbol i (database session statement) fun _ => True := by
  have recorded : recordsFill (some (.database session statement)) = true := by
    simp only [recordsFill]
    split
    · rfl
    · rename_i equality
      cases equality
      exact records.records
    · rename_i other
      exact absurd rfl (other session statement)
  have answered : AnsweredUnderLock ι before key symbol i .filled (.database session statement) :=
    answered_record recorded quiet answers
  exact Program.succeeds_perform (S := engineSignature) answered

omit [DecidableEq ι] in
theorem succeeds_updateOrderFill {row : OrderRow} (inserts : .insertOrder row ∈ session)
    (own : row.idempotencyKey = key) (orderId : ℕ) (status brokerOrderId : String)
    (fillPrice : ℚ) :
    SucceedsFilled ι before key symbol i
      (OrderWriter.updateOrderFill session orderId status brokerOrderId fillPrice)
      (RecordsOrder key) := by
  have answered : AnsweredUnderLock ι before key symbol i .filled
      (.database session (.execute (.updateOrder orderId status brokerOrderId fillPrice))) :=
    answered_record rfl trivial fun _ => ⟨(), rfl⟩
  refine Program.succeeds_bind (Program.succeeds_perform (S := engineSignature) answered)
    fun _ _ => ?_
  exact ⟨⟨row, List.mem_append_left _ inserts, own⟩, by simp [Write.RecordsFill]⟩

omit [DecidableEq ι] in
theorem succeeds_upsertPositionDb (records : RecordsOrder key session) (round8 : ℚ → ℚ)
    (strategyId symbol' side : String) (qty fillPrice : ℚ) (avgCost : Option ℚ) :
    SucceedsFilled ι before key symbol i
      (OrderWriter.upsertPositionDb round8 session strategyId symbol' side qty fillPrice avgCost)
      (RecordsOrder key) := by
  refine Program.succeeds_bind (succeeds_statement records trivial fun _ => ⟨_, rfl⟩) fun row _ => ?_
  cases row with
  | none =>
      refine Program.succeeds_bind (succeeds_statement records trivial fun _ => ⟨_, rfl⟩)
        fun id _ => ?_
      exact records.append _
  | some row =>
      refine Program.succeeds_bind (succeeds_statement records trivial fun _ => ⟨_, rfl⟩)
        fun _ _ => ?_
      exact records.append _

omit [DecidableEq ι] in
theorem succeeds_insertAuditLog (records : RecordsOrder key session) (eventType : String)
    (orderId : ℕ) :
    SucceedsFilled ι before key symbol i
      (OrderWriter.insertAuditLog session eventType orderId) (RecordsOrder key) := by
  refine Program.succeeds_bind (succeeds_statement records trivial fun _ => ⟨_, rfl⟩) fun _ _ => ?_
  exact records.append _

end Transaction

theorem wp_commitFill_once (config : Config) (order : Order) (prior : Position) (orderId : ℕ)
    (qty : ℚ) (receipt : BrokerOrder) {session : Session} {row : OrderRow}
    (inserts : .insertOrder row ∈ session) (own : row.idempotencyKey = key) :
    (commitFill config order prior orderId qty receipt session).wp
      (fillTransformer before key symbol i) (fun _ phase => phase = .locked) .filled := by
  have holds : DeliveryPhase.filled.HoldsLock := by simp [DeliveryPhase.HoldsLock]
  rw [commitFill]
  refine Protocol.wp_bind_succeeds (succeeds_updateOrderFill inserts own _ _ _ _)
    fun session records => ?_
  refine Protocol.wp_bind_succeeds (succeeds_getPosition holds _) fun position _ => ?_
  refine Protocol.wp_bind_succeeds (succeeds_upsertPositionDb records _ _ _ _ _ _ _)
    fun session records => ?_
  refine Protocol.wp_bind_succeeds (succeeds_insertAuditLog records _ _) fun session records => ?_
  refine wp_bind_commitOrder records ?_
  -- kept as a variable, or elaboration would evaluate it
  generalize computeRealizedPnl config.round8 prior order.side qty receipt.fillPrice = realizedPnl
  have quiet := quiet_bind (quiet_recordOutcome realizedPnl) fun _ => quiet_clearInFlight
  exact Protocol.wp_of_stable (stable_of_quiet quiet .locked) fun _ => rfl

/-! ## The database path -/

/-- The delivery holds the lock and is not between the broker call and the commit. -/
def Settled (phase : DeliveryPhase) : Prop := phase.HoldsLock ∧ phase ≠ .filled

/-- What a delivery has done when its order is placed or rejected. -/
def Placed (key : String) : Except Failure Placement → DeliveryPhase → Prop
  | .ok (.filled _ _ _ session), phase =>
      phase = .filled ∧ ∃ row, .insertOrder row ∈ session ∧ row.idempotencyKey = key
  | _, phase => Settled phase

theorem wp_placeWithDb_once (config : Config) {order : Order} (own : order.idempotencyKey = key)
    (prior : Position) :
    (placeWithDb config order prior).wp (fillTransformer before key symbol i) (Placed key)
      .locked := by
  have locked : Settled .locked := by simp [Settled, DeliveryPhase.HoldsLock]
  have inserted : Settled .inserted := by simp [Settled, DeliveryPhase.HoldsLock]
  rw [placeWithDb]
  cases admission config.settings order.side order.qty prior with
  | rejectBuy => exact locked
  | rejectSell =>
      refine Protocol.wp_bind_stable
        (stable_of_quiet (quiet_insertRejectedOrderOnce _ _ _ _ _ _ _) .locked) (fun _ => locked)
        fun inserted => ?_
      obtain ⟨orderId, created, session⟩ := inserted
      refine Protocol.wp_bind_stable (Program.calls_perform (stable_commit _ _)) (fun _ => locked)
        fun _ => ?_
      cases created with
      | true =>
          exact Protocol.wp_bind_stable (stable_of_quiet (quiet_publish _) .locked)
            (fun _ => locked) fun _ => locked
      | false => exact locked
  | submit qty =>
      dsimp only
      rw [OrderWriter.insertPendingOrder]
      rw [own, Program.bind_eq_bind, Program.bind_eq_bind, Program.bind_assoc, Program.wp_bind]
      refine wp_insertOrder (fun _ => locked) fun id => ?_
      rw [Program.andThen_ok, Program.pure_eq_ret, Program.ret_bind]
      refine Protocol.wp_bind_stable (stable_of_quiet (quiet_database _ (by simp)) .inserted)
        (fun _ => inserted) fun _ => ?_
      refine Protocol.wp_bind_stable (stable_of_quiet (quiet_setInFlight _) .inserted)
        (fun _ => inserted) fun _ => ?_
      refine wp_bind_placeOrder (Or.inr ⟨rfl, rfl⟩) _ _ _ _ _ fun receipt => ?_
      exact ⟨rfl, _, List.mem_singleton_self _, rfl⟩

/-- The `try` block ends with the lock held and no fill left to record. -/
theorem wp_executeWithDb_once (config : Config) {order : Order} (own : order.idempotencyKey = key)
    (prior : Position) :
    (executeWithDb config order prior).wp (fillTransformer before key symbol i)
      (fun _ phase => Settled phase) .locked := by
  have rollback : ∀ {outcome : DbOutcome} {phase : DeliveryPhase}, Settled phase →
      Program.wp (fillTransformer before key symbol i) (do database [] .rollback; return outcome)
        (fun _ phase => Settled phase) phase :=
    fun settled => Protocol.wp_bind_stable (stable_of_quiet (quiet_database _ (by simp)) _)
      (fun _ => settled) fun _ => settled
  rw [executeWithDb]
  rw [Program.bind_eq_bind, Program.wp_bind, Program.wp_attempt]
  refine Program.wp_mono (Protocol.transformer_monotone _ _ _ _) (fun outcome phase placed => ?_)
    (wp_placeWithDb_once config own prior)
  rw [Program.andThen_ok]
  cases outcome with
  | error error => exact rollback placed
  | ok placement =>
      cases placement with
      | rejected => exact placed
      | filled orderId qty receipt session =>
          obtain ⟨rfl, row, inserts, own⟩ := placed
          dsimp only
          rw [Program.bind_eq_bind, Program.wp_bind, Program.wp_attempt]
          refine Program.wp_mono (Protocol.transformer_monotone _ _ _ _) ?_
            (wp_commitFill_once config order prior orderId qty receipt inserts own)
          rintro outcome _ rfl
          have locked : Settled .locked := by simp [Settled, DeliveryPhase.HoldsLock]
          rw [Program.andThen_ok]
          cases outcome with
          | error error => exact rollback locked
          | ok done => exact locked

/-! ## The in-memory path -/

theorem wp_executeInMemory_once (config : Config) (data : Decision) (order : Order)
    (orderId : String) :
    (executeInMemory config data order orderId).wp (fillTransformer before key symbol i)
      (fun _ phase => Settled phase) .claimedLocked := by
  have claimed : Settled .claimedLocked := by simp [Settled, DeliveryPhase.HoldsLock]
  have locked : Settled .locked := by simp [Settled, DeliveryPhase.HoldsLock]
  rw [executeInMemory]
  refine Protocol.wp_bind_stable (stable_of_quiet (quiet_getPosition _) _) (fun _ => claimed)
    fun prior => ?_
  cases admission config.settings order.side order.qty prior with
  | rejectBuy => exact claimed
  | rejectSell =>
      exact Protocol.wp_of_stable
        (stable_of_quiet (quiet_bind (quiet_runtimeStore _) fun _ => quiet_publish _) _)
        fun _ => claimed
  | submit qty =>
      refine Protocol.wp_bind_stable (stable_of_quiet (quiet_setInFlight _) _) (fun _ => claimed)
        fun _ => ?_
      refine wp_bind_placeOrder (Or.inl ⟨rfl, rfl⟩) _ _ _ _ _ fun receipt => ?_
      exact Protocol.wp_of_stable
        (stable_of_quiet (quiet_bind (quiet_recordFill _ _ _ _ _ _ _) fun ctx =>
          quiet_bind (quiet_recordOutcome _) fun _ => quiet_clearInFlight) _) fun _ => locked

theorem wp_tryFinally_unlock {α : Type} {body : Engine α} {phase : DeliveryPhase}
    {post : Except Failure α → DeliveryPhase → Prop}
    (settles : body.wp (fillTransformer before key symbol i) (fun _ phase => Settled phase) phase)
    (raised : ∀ error phase, post (.error error) phase) (returned : ∀ value, post (.ok value) .idle) :
    (body.tryFinally (redisDelete (.orderLock symbol))).wp (fillTransformer before key symbol i)
      post phase := by
  rw [Program.wp_tryFinally]
  refine Program.wp_mono (Protocol.transformer_monotone _ _ _ _) (fun outcome phase settled => ?_)
    settles
  refine wp_unlock settled.1 settled.2 (raised _ _) ?_
  rw [Program.andThen_ok]
  cases outcome with
  | ok value => exact returned value
  | error error => exact raised _ _

theorem wp_submitInMemory_once (config : Config) (data : Decision) {order : Order}
    (ownKey : order.idempotencyKey = key) (ownSymbol : order.symbol = symbol) :
    (submitInMemory config data order).wp (fillTransformer before key symbol i)
      (fun _ _ => True) .idle := by
  subst ownKey ownSymbol
  rw [submitInMemory_eq, Program.wp_bind]
  refine wp_mark trivial trivial ?_
  rw [Program.andThen_ok, if_pos rfl]
  rw [executeClaimed]
  refine Protocol.wp_bind_stable (stable_of_quiet quiet_uuid4 _) (fun _ => trivial) fun orderId => ?_
  refine Protocol.wp_bind_stable (stable_of_quiet quiet_uuid4 _) (fun _ => trivial)
    fun lockValue => ?_
  rw [Program.bind_eq_bind, Program.wp_bind]
  refine wp_lock (Or.inr ⟨rfl, rfl⟩) trivial trivial ?_
  rw [Program.andThen_ok, if_pos rfl]
  exact wp_tryFinally_unlock (wp_executeInMemory_once config data order orderId)
    (fun _ _ => trivial) fun _ => trivial

section Delivery

variable {config : Config} {data : Decision}

/-- Every order that the decision is prepared into carries its key and its symbol. -/
def KeyedOrders (config : Config) (data : Decision) : Prop :=
  (prepareOrder config data).Returns fun prepared =>
    ∀ order, prepared = some order → OrderOf config data order

/-- What a step of a delivery of the decision guarantees. -/
abbrev deliveryTransformer (config : Config) (data : Decision) (before : ℕ) (i : ι) :
    Transformer engineSignature Failure DeliveryPhase :=
  fillTransformer before (data.orderKey config) data.orderSymbol i

theorem wp_processInMemory_once (keyed : KeyedOrders config data) :
    (processInMemory config data).wp (deliveryTransformer config data before i)
      (fun _ _ => True) .idle := by
  refine Protocol.wp_bind_stable_returns (stable_of_quiet (quiet_prepareOrder config data) _) keyed
    (fun _ => trivial) fun prepared own => ?_
  cases prepared with
  | none => trivial
  | some order =>
      obtain ⟨ownKey, ownSymbol⟩ := own order rfl
      exact wp_submitInMemory_once config data ownKey ownSymbol

theorem wp_handleDbFailure_once (keyed : KeyedOrders config data) (order : Order)
    (prior : Position) (filled : Option (ℚ × BrokerOrder)) :
    (handleDbFailure config data order prior filled).wp (deliveryTransformer config data before i)
      (fun _ _ => True) .idle := by
  cases filled with
  | none => exact wp_processInMemory_once keyed
  | some fill =>
      exact Protocol.wp_of_stable (stable_of_quiet
        (quiet_bind quiet_uuid4 fun _ => quiet_bind (quiet_recordFill _ _ _ _ _ _ _) fun _ =>
          quiet_ret _) _) fun _ => trivial

theorem wp_submitWithDb_once (keyed : KeyedOrders config data) {order : Order}
    (own : OrderOf config data order) :
    (submitWithDb config data order).wp (deliveryTransformer config data before i)
      (fun _ _ => True) .idle := by
  obtain ⟨ownKey, ownSymbol⟩ := own
  rw [submitWithDb]
  refine Protocol.wp_bind_stable (stable_of_quiet quiet_uuid4 _) (fun _ => trivial)
    fun lockValue => ?_
  refine Protocol.wp_bind_stable (stable_of_quiet (quiet_database _ (by simp)) _)
    (fun _ => trivial) fun found => ?_
  cases found with
  | some row => trivial
  | none =>
      dsimp only
      rw [Program.bind_eq_bind, Program.wp_bind, ownSymbol]
      refine wp_lock (Or.inl ⟨rfl, rfl⟩) trivial trivial ?_
      rw [Program.andThen_ok, if_pos rfl]
      refine Protocol.wp_bind_stable (stable_of_quiet (quiet_getPosition _) _) (fun _ => trivial)
        fun prior => ?_
      rw [Program.bind_eq_bind, Program.wp_bind]
      refine wp_tryFinally_unlock (wp_executeWithDb_once config ownKey prior) (fun _ _ => trivial)
        fun outcome => ?_
      rw [Program.andThen_ok]
      cases outcome with
      | rejected => trivial
      | failed filled => exact wp_handleDbFailure_once keyed order prior filled
      | committed orderId qty receipt =>
          exact Protocol.wp_of_stable (stable_of_quiet (quiet_publishCommitted _ _ _ _ _ _ _) _)
            fun _ => trivial

/-- A delivery follows the protocol from its entry to its end. -/
theorem wp_process_once (keyed : KeyedOrders config data) :
    (process config data).wp (deliveryTransformer config data before i) (fun _ _ => True)
      .idle := by
  refine Protocol.wp_bind_stable (stable_of_quiet (quiet_redisGet _) _) (fun _ => trivial)
    fun killed => ?_
  split
  · trivial
  refine Protocol.wp_bind_stable (stable_of_quiet (quiet_redisGet _) _) (fun _ => trivial)
    fun paused => ?_
  split
  · exact Protocol.wp_bind_stable (stable_of_quiet (quiet_redisGet _) _) (fun _ => trivial)
      fun _ => trivial
  refine Protocol.wp_bind_stable (stable_of_quiet mild_isDbAvailable.quiet _) (fun _ => trivial)
    fun available => ?_
  split
  · refine Protocol.wp_bind_stable_returns (stable_of_quiet (quiet_prepareOrder config data) _)
      keyed (fun _ => trivial) fun prepared own => ?_
    cases prepared with
    | none => trivial
    | some order => exact wp_submitWithDb_once keyed (own order rfl)
  · exact wp_processInMemory_once keyed

end Delivery

/-! ## Any number of deliveries -/

/-- Deliveries of one decision that are about to be processed side by side. -/
def deliveriesPool (ι : Type) (config : Config) (data : Decision) (world : World) :
    Pool engineSignature Failure Unit World ι where
  world := world
  program _ := process config data

/-- Deliveries and redeliveries of a decision with a strategy and a timestamp, however they are
interleaved, call the broker once at most as long as the stores agree. -/
theorem filled_at_most_once (config : Config) (data : Decision) {strategyId raw : String}
    (named : data.strategyId = some strategyId) (nonempty : strategyId ≠ "")
    (stamped : data.timestamp = some raw) (world : World) {schedule : List (ι × Choice)}
    (agree : (deliveriesPool ι config data world).Obeys engineHandler
      (StoresAgree (data.orderKey config) data.orderSymbol) schedule) :
    ((deliveriesPool ι config data world).run engineHandler schedule).world.submitted.length ≤
      world.submitted.length + 1 := by
  have keyed : KeyedOrders config data := returns_prepareOrder named nonempty stamped
  have start : (fillProtocol ι world.submitted.length (data.orderKey config)
      data.orderSymbol).Holds engineHandler (StoresAgree (data.orderKey config) data.orderSymbol)
      (fun _ _ _ => True) (deliveriesPool ι config data world) fun _ => .idle :=
    ⟨AtMostOnce.start (world.slots (data.orderKey config) data.orderSymbol),
      fun _ => wp_process_once keyed⟩
  obtain ⟨phases, holds⟩ := start.run (fun _ _ _ _ => trivial) schedule agree
  exact AtMostOnce.bound holds.invariant

/-- A small buy, so that the position limit leaves room for a second one. -/
def quarterBitcoin : Decision := { bitcoinDecision "buy" with qty := .number (1 / 4) }

/-- Two deliveries of it: the second runs while the first one holds the lock. -/
def secondFindsLock : List (Bool × Choice) :=
  List.replicate 24 (true, ({} : Choice)) ++ List.replicate 60 (false, ({} : Choice)) ++
    List.replicate 60 (true, ({} : Choice))

/-- Two deliveries of it: the database becomes unavailable after the first one is committed. -/
def databaseLost : List (Bool × Choice) :=
  List.replicate 60 (true, ({} : Choice)) ++ List.replicate 60 (false, { dbAvailable := false })

/-- While the first delivery holds the lock, a second one does not call the broker. -/
theorem filled_at_most_once_quarter :
    ((deliveriesPool Bool {} quarterBitcoin freshWorld).run engineHandler
      secondFindsLock).world.submitted.length ≤ freshWorld.submitted.length + 1 := by
  refine filled_at_most_once {} quarterBitcoin rfl (by decide) rfl freshWorld ?_
  decide +kernel

/-- Without the database the second delivery does not see the order of the first one, and the broker
is called twice. -/
theorem filled_twice :
    ((deliveriesPool Bool {} quarterBitcoin freshWorld).run engineHandler
        databaseLost).world.submitted =
      [{ symbol := "BTC/USD", side := "buy", qty := 1 / 4, price := 100 },
        { symbol := "BTC/USD", side := "buy", qty := 1 / 4, price := 100 }] := by
  decide +kernel

end TradingControl
