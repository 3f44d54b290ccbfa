import TradingControl.Effects.Watched
import TradingControl.Execution.AtMostOneFill

/-!
# The order lock

A delivery takes the lock of its symbol by writing a value of its own under it, with a time to
live, and releases it by removing the key, whatever it holds.  The in-memory path takes the lock
in front of a `try` that ends in the release.  The database path reads the position in between.
-/

namespace TradingControl

open Effects Python Engine

/-! ## Records -/

/-- How far a delivery has come with the lock. -/
inductive LockPhase where
  | free
  /-- Taken on the database path; the position is not read yet. -/
  | entering (value : String)
  /-- Taken, and in the `try` that releases it. -/
  | holding (value : String)
  /-- Redis failed at the release. -/
  | lost (value : String)
deriving DecidableEq

namespace LockPhase

/-- Value of a lock that is taken and still to be released. -/
def owed : LockPhase → Option String
  | .entering value => some value
  | .holding value => some value
  | _ => none

/-- The position has been read. -/
def enter : LockPhase → LockPhase
  | .entering value => .holding value
  | phase => phase

/-- The release failed. -/
def lose : LockPhase → LockPhase
  | .holding value => .lost value
  | phase => phase

@[simp] theorem owed_enter (phase : LockPhase) : phase.enter.owed = phase.owed := by
  cases phase with
  | free => rfl
  | entering value => rfl
  | holding value => rfl
  | lost value => rfl

end LockPhase

/-- A delivery and the lock of its symbol. -/
structure LockRecord where
  symbol : String
  /-- It has claimed its idempotency key, as the in-memory path does first. -/
  claimed : Bool := false
  phase : LockPhase := .free
deriving DecidableEq

/-- What an operation does to the record of the delivery that issues it. -/
def lockWatcher : Watcher engineSignature Choice World LockRecord
  | record, .redis (.setnx (.orderDedup key) _), choice, world =>
      if choice.redisFails then record
      else { record with claimed := record.claimed || (world.redis (.orderDedup key)).isNone }
  | record, .redis (.setnx (.orderLock symbol) value), choice, world =>
      if choice.redisFails || (world.redis (.orderLock symbol)).isSome then record
      else
        { record with phase := if record.claimed then .holding value else .entering value }
  | record, .redis (.get (.paperPosition _)), choice, _ =>
      if choice.redisFails then record else { record with phase := record.phase.enter }
  | record, .redis (.delete (.orderLock _)), choice, _ =>
      { record with phase := if choice.redisFails then record.phase.lose else .free }
  | record, _, _, _ => record

/-- Operations on neither a lock nor an idempotency key. -/
def EngineOp.Lockless : EngineOp → Prop
  | .redis (.get _) => True
  | .redis command =>
      (∀ symbol, command.key ≠ .orderLock symbol) ∧ ∀ key, command.key ≠ .orderDedup key
  | _ => True

/-- A delivery takes the lock of its own symbol when it has none, removes it when it has it, and
ends without it.  It relies on Redis for the read of the position after the database path took the
lock. -/
def lockDiscipline : Discipline engineSignature Choice LockRecord where
  sound record
    | .redis (.setnx (.orderLock locked) _) => locked = record.symbol ∧ record.phase = .free
    | .redis (.setnx (.orderDedup _) _) => True
    | .redis (.delete (.orderLock locked)) =>
        locked = record.symbol ∧ ∃ value, record.phase = .holding value
    | op => op.Lockless
  relies record op choice :=
    ∀ value symbol, record.phase = .entering value → op = .redis (.get (.paperPosition symbol)) →
      choice.redisFails = false
  finished record := record.phase.owed = none

/-! ## Programs without the lock -/

/-- Ambient keys are neither locks nor idempotency keys. -/
theorem Key.Ambient.lockless {key : Key} (ambient : key.Ambient) :
    (∀ symbol, key ≠ .orderLock symbol) ∧ ∀ dedup, key ≠ .orderDedup dedup := by
  constructor
  · rintro symbol rfl
    exact ambient
  · rintro dedup rfl
    exact ambient

theorem lockless_of_quiet {op : EngineOp} (quiet : op.Quiet) : op.Lockless := by
  cases op with
  | redis command =>
      cases command with
      | get key => trivial
      | setnx key value =>
          cases key with
          | paperCash => exact ⟨fun symbol => Key.noConfusion, fun dedup => Key.noConfusion⟩
          | _ => exact Key.Ambient.lockless quiet
      | set key value => exact Key.Ambient.lockless quiet
      | delete key => exact Key.Ambient.lockless quiet
      | modify key change => exact Key.Ambient.lockless quiet
  | _ => trivial

/-- Programs that touch neither a lock nor an idempotency key. -/
def Engine.Lockless {α : Type} (program : Engine α) : Prop := program.Calls EngineOp.Lockless

namespace Engine

variable {α β : Type}

theorem Quiet.lockless {program : Engine α} (quiet : program.Quiet) : program.Lockless :=
  Program.Calls.mono quiet fun _ => lockless_of_quiet

theorem lockless_bind {program : Engine α} {rest : α → Engine β} (first : program.Lockless)
    (second : ∀ value, (rest value).Lockless) : Lockless (program >>= rest) :=
  Program.calls_bind first second

theorem lockless_redisSet {key : Key} (value : key.Value)
    (other : (∀ symbol, key ≠ .orderLock symbol) ∧ ∀ dedup, key ≠ .orderDedup dedup) :
    (redisSet key value).Lockless :=
  Program.calls_perform other

theorem lockless_database (session : Session) (statement : Statement) :
    (database session statement).Lockless := Program.calls_perform trivial

theorem lockless_placeOrder (round8 : ℚ → ℚ) (symbol side : String) (qty price : ℚ) :
    (PaperBroker.placeOrder round8 symbol side qty price).Lockless := by
  have cash : (∀ symbol, Key.paperCash ≠ .orderLock symbol) ∧
      ∀ dedup, Key.paperCash ≠ .orderDedup dedup :=
    ⟨fun symbol => Key.noConfusion, fun dedup => Key.noConfusion⟩
  have position : (∀ other, Key.paperPosition symbol ≠ .orderLock other) ∧
      ∀ dedup, Key.paperPosition symbol ≠ .orderDedup dedup :=
    ⟨fun other => Key.noConfusion, fun dedup => Key.noConfusion⟩
  refine lockless_bind (Program.calls_perform trivial) fun _ => ?_
  refine lockless_bind (Program.calls_perform cash) fun _ => ?_
  refine lockless_bind (Program.calls_perform trivial) fun slippage => ?_
  refine lockless_bind quiet_getCash.lockless fun held => ?_
  refine lockless_bind (lockless_redisSet _ cash) fun _ => ?_
  refine lockless_bind (quiet_getPosition symbol).lockless fun current => ?_
  refine lockless_bind quiet_utcNow.lockless fun now => ?_
  refine lockless_bind (lockless_redisSet _ position) fun _ => ?_
  refine lockless_bind quiet_uuid4.lockless fun brokerOrderId => ?_
  refine lockless_bind (lockless_redisSet _ (Key.Ambient.lockless ?_)) fun _ => trivial
  trivial

/-- The `try` of the in-memory path. -/
theorem lockless_executeInMemory (config : Config) (data : Decision) (order : Order)
    (orderId : String) : (executeInMemory config data order orderId).Lockless := by
  refine lockless_bind (quiet_getPosition _).lockless fun prior => ?_
  split
  · exact lockless_bind (quiet_runtimeStore _).lockless fun _ => (quiet_publish _).lockless
  · trivial
  · refine lockless_bind (quiet_setInFlight _).lockless fun _ => ?_
    refine lockless_bind (lockless_placeOrder _ _ _ _ _) fun receipt => ?_
    refine lockless_bind (quiet_recordFill _ _ _ _ _ _ _).lockless fun ctx => ?_
    exact lockless_bind (quiet_recordOutcome _).lockless fun _ => quiet_clearInFlight.lockless

theorem lockless_placeWithDb (config : Config) (order : Order) (prior : Position) :
    (placeWithDb config order prior).Lockless := by
  rw [placeWithDb]
  split
  · refine lockless_bind (quiet_insertRejectedOrderOnce _ _ _ _ _ _ _).lockless
      fun inserted => ?_
    obtain ⟨orderId, created, session⟩ := inserted
    refine lockless_bind (lockless_database _ _) fun _ => ?_
    dsimp only
    split
    · exact lockless_bind (quiet_publish _).lockless fun _ => trivial
    · trivial
  · trivial
  · refine lockless_bind (lockless_bind (lockless_database _ _) fun _ => trivial)
      fun inserted => ?_
    obtain ⟨orderId, session⟩ := inserted
    refine lockless_bind (lockless_database _ _) fun _ => ?_
    refine lockless_bind (quiet_setInFlight _).lockless fun _ => ?_
    exact lockless_bind (lockless_placeOrder _ _ _ _ _) fun _ => trivial

theorem lockless_upsertPositionDb (round8 : ℚ → ℚ) (session : Session)
    (strategyId symbol side : String) (qty fillPrice : ℚ) (avgCost : Option ℚ) :
    (OrderWriter.upsertPositionDb round8 session strategyId symbol side qty fillPrice
      avgCost).Lockless := by
  refine lockless_bind (lockless_database _ _) fun row => ?_
  split
  · exact lockless_bind (lockless_database _ _) fun _ => trivial
  · exact lockless_bind (lockless_database _ _) fun _ => trivial

theorem lockless_commitFill (config : Config) (order : Order) (prior : Position) (orderId : ℕ)
    (qty : ℚ) (receipt : BrokerOrder) (session : Session) :
    (commitFill config order prior orderId qty receipt session).Lockless := by
  rw [commitFill]
  -- kept as a variable, or elaboration would evaluate it
  generalize computeRealizedPnl config.round8 prior order.side qty receipt.fillPrice = realizedPnl
  refine lockless_bind (lockless_bind (lockless_database _ _) fun _ => trivial) fun session => ?_
  refine lockless_bind (quiet_getPosition _).lockless fun position => ?_
  refine lockless_bind (lockless_upsertPositionDb _ _ _ _ _ _ _ _) fun session => ?_
  refine lockless_bind (lockless_bind (lockless_database _ _) fun _ => trivial) fun session => ?_
  refine lockless_bind (lockless_database _ _) fun _ => ?_
  exact lockless_bind (quiet_recordOutcome _).lockless fun _ => quiet_clearInFlight.lockless

/-- The `try` of the database path. -/
theorem lockless_executeWithDb (config : Config) (order : Order) (prior : Position) :
    (executeWithDb config order prior).Lockless := by
  refine lockless_bind (Program.calls_attempt (lockless_placeWithDb _ _ _)) fun placed => ?_
  split
  · exact lockless_bind (lockless_database _ _) fun _ => trivial
  · trivial
  · refine lockless_bind (Program.calls_attempt (lockless_commitFill _ _ _ _ _ _ _))
      fun committed => ?_
    split
    · exact lockless_bind (lockless_database _ _) fun _ => trivial
    · trivial

end Engine

/-! ## One delivery -/

section

variable {record : LockRecord}

/-- The transformer of one delivery. -/
abbrev lockTransformer : Transformer engineSignature Failure LockRecord :=
  lockDiscipline.transformer engineHandler lockWatcher

/-- Operations without the lock leave the record alone, the first read of the position apart. -/
theorem unrecorded_of_lockless (inside : ∀ value, record.phase ≠ .entering value) {op : EngineOp}
    (lockless : op.Lockless) : lockDiscipline.Unrecorded lockWatcher record op := by
  cases op with
  | redis command =>
      cases command with
      | get key =>
          refine ⟨by cases key <;> trivial, fun choice world => ?_⟩
          cases key with
          | paperPosition symbol =>
              have stays : record.phase.enter = record.phase := by
                cases held : record.phase with
                | entering value => exact absurd held (inside value)
                | free => rfl
                | holding value => rfl
                | lost value => rfl
              simp only [lockWatcher, stays]
              exact ite_self record
          | _ => rfl
      | setnx key value =>
          cases key with
          | orderLock symbol => exact absurd rfl (lockless.1 symbol)
          | orderDedup dedup => exact absurd rfl (lockless.2 dedup)
          | _ => exact ⟨lockless, fun choice world => rfl⟩
      | delete key =>
          cases key with
          | orderLock symbol => exact absurd rfl (lockless.1 symbol)
          | _ => exact ⟨lockless, fun choice world => rfl⟩
      | set key value => exact ⟨lockless, fun choice world => rfl⟩
      | modify key change => exact ⟨lockless, fun choice world => rfl⟩
  | _ => exact ⟨trivial, fun choice world => rfl⟩

/-- The in-memory path claims its key. -/
theorem wp_claim (dedup : String) (post : Except Failure Bool → LockRecord → Prop)
    (failed : post (.error .redisError) record) (known : post (.ok false) record)
    (claimed : post (.ok true) { record with claimed := true }) :
    (redisSetnx (.orderDedup dedup) "1").wp lockTransformer post record := by
  rw [redisSetnx, Program.wp_perform]
  refine ⟨trivial, fun choice world _ => ?_⟩
  by_cases fails : choice.redisFails = true
  · simpa [engineHandler, lockWatcher, fails] using failed
  · cases held : world.redis (.orderDedup dedup) with
    | none =>
        simpa [engineHandler, lockWatcher, fails, held, KeyValue.Command.answer] using claimed
    | some value =>
        simpa [engineHandler, lockWatcher, fails, held, KeyValue.Command.answer] using known

/-- A free delivery asks for the lock of its symbol. -/
theorem wp_take (free : record.phase = .free) (value : String)
    (post : Except Failure Bool → LockRecord → Prop)
    (failed : post (.error .redisError) record) (held : post (.ok false) record)
    (taken : post (.ok true)
      { record with phase := if record.claimed then .holding value else .entering value }) :
    (redisSetnx (.orderLock record.symbol) value).wp lockTransformer post record := by
  rw [redisSetnx, Program.wp_perform]
  refine ⟨⟨rfl, free⟩, fun choice world _ => ?_⟩
  by_cases fails : choice.redisFails = true
  · simpa [engineHandler, lockWatcher, fails] using failed
  · cases owner : world.redis (.orderLock record.symbol) with
    | none =>
        simpa [engineHandler, lockWatcher, fails, owner, KeyValue.Command.answer] using taken
    | some other =>
        simpa [engineHandler, lockWatcher, fails, owner, KeyValue.Command.answer] using held

/-- The database path reads the position in front of its `try`. -/
theorem wp_enter {value symbol : String} (entering : record.phase = .entering value)
    (post : Except Failure Position → LockRecord → Prop)
    (entered : ∀ position, post (.ok position) { record with phase := .holding value }) :
    (PaperBroker.getPosition symbol).wp lockTransformer post record := by
  rw [PaperBroker.getPosition, Program.bind_eq_bind, Program.wp_bind, redisGet, Program.wp_perform]
  refine ⟨trivial, fun choice world relied => ?_⟩
  have answers := relied value symbol entering rfl
  have recorded : lockWatcher record (.redis (.get (.paperPosition symbol))) choice world =
      { record with phase := .holding value } := by
    simp [lockWatcher, answers, entering, LockPhase.enter]
  rw [recorded]
  simpa [engineHandler, answers] using entered _

/-- The end of either `try`. -/
theorem wp_release {α : Type} {body : Engine α} (lockless : body.Lockless) {value : String}
    (holding : record.phase = .holding value) (post : Except Failure α → LockRecord → Prop)
    (lost : ∀ error, post (.error error) { record with phase := .lost value })
    (released : ∀ outcome, post outcome { record with phase := .free }) :
    (body.tryFinally (redisDelete (.orderLock record.symbol))).wp lockTransformer post record := by
  have inside : ∀ value, record.phase ≠ .entering value := by
    rw [holding]
    exact fun _ => LockPhase.noConfusion
  rw [Program.wp_tryFinally]
  refine Discipline.wp_of_unrecorded
    (Program.Calls.mono lockless fun op => unrecorded_of_lockless inside) fun outcome => ?_
  rw [redisDelete, Program.wp_perform]
  refine ⟨⟨rfl, value, holding⟩, fun choice world _ => ?_⟩
  by_cases fails : choice.redisFails = true
  · simpa [engineHandler, lockWatcher, fails, holding, LockPhase.lose] using lost _
  · simpa [engineHandler, lockWatcher, fails] using released outcome

end

/-! ## From the entry to the end -/

theorem returns_prepareOrder_symbol (config : Config) (data : Decision) :
    (prepareOrder config data).Returns fun prepared =>
      ∀ order, prepared = some order → order.symbol = data.orderSymbol := by
  have accepted : (parseAndValidate config data).Returns fun accepted =>
      ∀ parsed, accepted = some parsed → parsed.symbol = data.orderSymbol := by
    refine Program.returns_bind_any fun strategyId => Program.returns_bind_any fun traceId => ?_
    cases result : parseDecisionFields strategyId traceId data with
    | error error => exact fun _ impossible => by cases impossible
    | ok parsed =>
        refine Program.returns_bind_any fun blocked => ?_
        cases blocked with
        | true => exact fun _ impossible => by cases impossible
        | false =>
            rintro _ ⟨⟩
            exact (parseDecisionFields_fields result).1
  refine Program.returns_bind accepted fun accepted symbol => ?_
  cases accepted with
  | none => exact fun _ impossible => by cases impossible
  | some parsed =>
      refine Program.returns_bind_any fun atr => Program.returns_bind_any fun pct =>
        Program.returns_bind_any fun gate => ?_
      cases gate with
      | some reason => exact fun _ impossible => by cases impossible
      | none =>
          refine Program.returns_bind_any fun qty => Program.returns_bind_any fun minute => ?_
          rintro _ ⟨⟩
          exact symbol parsed rfl

section

variable {config : Config} {data : Decision} {record : LockRecord}

theorem unrecorded_of_free (free : record.phase = .free) {α : Type} {program : Engine α}
    (lockless : program.Lockless) :
    program.Calls (lockDiscipline.Unrecorded lockWatcher record) := by
  have inside : ∀ value, record.phase ≠ .entering value := by
    rw [free]
    exact fun _ => LockPhase.noConfusion
  exact Program.Calls.mono lockless fun op => unrecorded_of_lockless inside

/-- A delivery that has claimed its key takes the lock in front of the `try` that releases it. -/
theorem follows_executeClaimed {order : Order} (free : record.phase = .free)
    (claimed : record.claimed = true) (own : order.symbol = record.symbol) :
    lockDiscipline.Follows engineHandler lockWatcher (executeClaimed config data order)
      record := by
  have ended : record.phase.owed = none := by rw [free]; rfl
  rw [Discipline.Follows, executeClaimed, own]
  refine Discipline.wp_bind_unrecorded (unrecorded_of_free free quiet_uuid4.lockless)
    (fun _ => ended) fun orderId => ?_
  refine Discipline.wp_bind_unrecorded (unrecorded_of_free free quiet_uuid4.lockless)
    (fun _ => ended) fun lockValue => ?_
  rw [Program.bind_eq_bind, Program.wp_bind]
  refine wp_take free _ _ ended ended ?_
  rw [Program.andThen_ok, if_pos rfl, claimed, if_pos rfl]
  exact wp_release (lockless_executeInMemory _ _ _ _) rfl _ (fun _ => rfl) fun _ => rfl

theorem follows_submitInMemory {order : Order} (free : record.phase = .free)
    (own : order.symbol = record.symbol) :
    lockDiscipline.Follows engineHandler lockWatcher (submitInMemory config data order) record := by
  have ended : record.phase.owed = none := by rw [free]; rfl
  rw [Discipline.Follows, submitInMemory_eq, Program.wp_bind]
  refine wp_claim _ _ ended ended ?_
  rw [Program.andThen_ok, if_pos rfl]
  exact follows_executeClaimed free rfl own

/-- Either path, from the decision to its own way of submitting an order. -/
theorem follows_prepared (free : record.phase = .free) (own : record.symbol = data.orderSymbol)
    {submit : Order → Engine Unit}
    (submits : ∀ order : Order, order.symbol = record.symbol →
      lockDiscipline.Follows engineHandler lockWatcher (submit order) record) :
    lockDiscipline.Follows engineHandler lockWatcher
      ((prepareOrder config data).bind fun prepared =>
        match prepared with
        | none => (pure () : Engine Unit)
        | some order => submit order) record := by
  have ended : record.phase.owed = none := by rw [free]; rfl
  refine Discipline.wp_bind_unrecorded_returns
    (unrecorded_of_free free (quiet_prepareOrder config data).lockless)
    (returns_prepareOrder_symbol config data) (fun _ => ended) fun prepared symbol => ?_
  cases prepared with
  | none => exact ended
  | some order => exact submits order ((symbol order rfl).trans own.symm)

theorem follows_processInMemory (free : record.phase = .free)
    (own : record.symbol = data.orderSymbol) :
    lockDiscipline.Follows engineHandler lockWatcher (processInMemory config data) record :=
  follows_prepared free own fun _ => follows_submitInMemory free

theorem follows_handleDbFailure (free : record.phase = .free)
    (own : record.symbol = data.orderSymbol) (order : Order) (prior : Position)
    (filled : Option (ℚ × BrokerOrder)) :
    lockDiscipline.Follows engineHandler lockWatcher
      (handleDbFailure config data order prior filled) record := by
  have ended : record.phase.owed = none := by rw [free]; rfl
  cases filled with
  | none => exact follows_processInMemory free own
  | some fill =>
      refine Discipline.wp_of_unrecorded (unrecorded_of_free free ?_) fun _ => ended
      exact lockless_bind quiet_uuid4.lockless fun _ =>
        lockless_bind (quiet_recordFill _ _ _ _ _ _ _).lockless fun _ => trivial

/-- The database path takes the lock, reads the position, and only then enters its `try`. -/
theorem follows_submitWithDb (free : record.phase = .free)
    (symbol : record.symbol = data.orderSymbol) {order : Order}
    (own : order.symbol = record.symbol) (unclaimed : record.claimed = false) :
    lockDiscipline.Follows engineHandler lockWatcher (submitWithDb config data order) record := by
  have ended : record.phase.owed = none := by rw [free]; rfl
  rw [Discipline.Follows, submitWithDb, own]
  refine Discipline.wp_bind_unrecorded (unrecorded_of_free free quiet_uuid4.lockless)
    (fun _ => ended) fun lockValue => ?_
  refine Discipline.wp_bind_unrecorded (unrecorded_of_free free (lockless_database _ _))
    (fun _ => ended) fun found => ?_
  cases found with
  | some row => exact ended
  | none =>
      dsimp only
      rw [Program.bind_eq_bind, Program.wp_bind]
      refine wp_take free _ _ ended ended ?_
      rw [Program.andThen_ok, if_pos rfl, unclaimed, if_neg Bool.false_ne_true]
      rw [Program.bind_eq_bind, Program.wp_bind]
      refine wp_enter rfl _ fun prior => ?_
      rw [Program.andThen_ok, Program.bind_eq_bind, Program.wp_bind]
      refine @wp_release { symbol := record.symbol, phase := .holding lockValue } _ _
        (lockless_executeWithDb _ _ _) lockValue rfl _ (fun error => ?_) fun outcome => ?_
      · rfl
      cases outcome with
      | error error => rfl
      | ok outcome =>
          rw [Program.andThen_ok]
          cases outcome with
          | rejected => rfl
          | failed filled =>
              exact @follows_handleDbFailure config data { symbol := record.symbol } rfl symbol
                order prior filled
          | committed orderId qty receipt =>
              exact Discipline.wp_of_unrecorded
                (unrecorded_of_free rfl (quiet_publishCommitted _ _ _ _ _ _ _).lockless)
                fun _ => rfl

theorem follows_process (config : Config) (data : Decision) :
    lockDiscipline.Follows engineHandler lockWatcher (process config data)
      { symbol := data.orderSymbol } := by
  have reads : ∀ key, (redisGet key).Calls
      (lockDiscipline.Unrecorded lockWatcher { symbol := data.orderSymbol }) := fun key =>
    unrecorded_of_free rfl (quiet_redisGet key).lockless
  refine Discipline.wp_bind_unrecorded (reads _) (fun _ => rfl) fun killed => ?_
  split
  · rfl
  refine Discipline.wp_bind_unrecorded (reads _) (fun _ => rfl) fun paused => ?_
  split
  · exact Discipline.wp_bind_unrecorded (reads _) (fun _ => rfl) fun _ => rfl
  refine Discipline.wp_bind_unrecorded (unrecorded_of_free rfl mild_isDbAvailable.quiet.lockless)
    (fun _ => rfl) fun available => ?_
  split
  · exact follows_prepared rfl rfl fun order own => follows_submitWithDb rfl rfl own rfl
  · exact follows_processInMemory rfl rfl

end

/-! ## Deliveries side by side -/

variable {ι : Type}

/-- A delivery that is still to release the lock of its symbol finds its own value under the key or
nothing, and no other delivery of the symbol is still to release it. -/
structure LockKept (world : World) (records : ι → LockRecord) : Prop where
  key : ∀ i value, (records i).phase.owed = some value →
    world.redis (.orderLock (records i).symbol) = none ∨
      world.redis (.orderLock (records i).symbol) = some value
  alone : ∀ i j, (records i).symbol = (records j).symbol → (records i).phase.owed ≠ none →
    (records j).phase.owed ≠ none → i = j

/-- No delivery takes the lock of a symbol while another one that took it is still to release it,
and Redis answers the read of the position between the database path's lock and its `try`. -/
structure LockTerms (world : World) (records : ι → LockRecord) (i : ι) (op : EngineOp)
    (choice : Choice) : Prop where
  alone : ∀ symbol value, op = .redis (.setnx (.orderLock symbol) value) →
    world.redis (.orderLock symbol) = none →
    ∀ j, j ≠ i → (records j).symbol = symbol → (records j).phase.owed = none
  read : lockDiscipline.relies (records i) op choice

/-- The time to live of a lock runs out. -/
def expire (symbol : String) (world : World) : World := world.erase (.orderLock symbol)

section

variable {world after : World} {records : ι → LockRecord}

/-- A world in which some locks have gone and nothing else has happened to them. -/
theorem LockKept.weaken (kept : LockKept world records)
    (locks : ∀ symbol, after.redis (.orderLock symbol) = none ∨
      after.redis (.orderLock symbol) = world.redis (.orderLock symbol)) :
    LockKept after records where
  key i value owed := by
    rcases locks (records i).symbol with gone | same
    · exact Or.inl gone
    · rw [same]
      exact kept.key i value owed
  alone := kept.alone

theorem LockKept.expire (kept : LockKept world records) (symbol : String) :
    LockKept (expire symbol world) records := by
  refine kept.weaken fun other => ?_
  by_cases same : other = symbol
  · subst same
    exact Or.inl (World.erase_redis_self ..)
  · exact Or.inr (World.erase_redis_other world (by simpa using same))

variable [DecidableEq ι] {i : ι} {record : LockRecord}

theorem LockKept.update (kept : LockKept world records)
    (symbol : record.symbol = (records i).symbol)
    (owed : record.phase.owed = none ∨ record.phase.owed = (records i).phase.owed) :
    LockKept world (Function.update records i record) := by
  have less : ∀ j value, (Function.update records i record j).phase.owed = some value →
      (records j).phase.owed = some value := by
    intro j value held
    by_cases same : j = i
    · subst same
      rw [Function.update_self] at held
      rcases owed with nothing | kept
      · rw [nothing] at held
        cases held
      · rw [← kept, held]
    · rwa [Function.update_of_ne same] at held
  have symbols : ∀ j, (Function.update records i record j).symbol = (records j).symbol := by
    intro j
    by_cases same : j = i
    · subst same
      rw [Function.update_self, symbol]
    · rw [Function.update_of_ne same]
  constructor
  · intro j value held
    rw [symbols]
    exact kept.key j value (less j value held)
  · intro j other same first second
    rw [symbols, symbols] at same
    obtain ⟨value, held⟩ := Option.ne_none_iff_exists'.mp first
    obtain ⟨otherValue, otherHeld⟩ := Option.ne_none_iff_exists'.mp second
    exact kept.alone j other same (by rw [less j value held]; simp)
      (by rw [less other otherValue otherHeld]; simp)

/-- A delivery that takes a lock that nobody owes. -/
theorem LockKept.take (kept : LockKept world records) {value : String}
    (symbol : record.symbol = (records i).symbol) (owed : record.phase.owed = some value)
    (alone : ∀ j, j ≠ i → (records j).symbol = (records i).symbol → (records j).phase.owed = none) :
    LockKept (world.write (.orderLock (records i).symbol) value)
      (Function.update records i record) := by
  constructor
  · intro j held owes
    by_cases same : j = i
    · subst same
      rw [Function.update_self] at owes ⊢
      rw [owed] at owes
      cases owes
      rw [symbol]
      exact Or.inr (World.write_redis_self ..)
    · rw [Function.update_of_ne same] at owes ⊢
      have other : (records j).symbol ≠ (records i).symbol := by
        intro shared
        rw [alone j same shared] at owes
        cases owes
      rw [World.write_redis_other _ (by simpa using other)]
      exact kept.key j held owes
  · intro j other shared first second
    by_cases left : j = i
    · by_cases right : other = i
      · rw [left, right]
      · rw [left, Function.update_self, Function.update_of_ne right, symbol] at shared
        rw [Function.update_of_ne right] at second
        exact absurd (alone other right shared.symm) second
    · rw [Function.update_of_ne left] at shared first
      by_cases right : other = i
      · rw [right, Function.update_self, symbol] at shared
        exact absurd (alone j left shared) first
      · rw [Function.update_of_ne right] at shared second
        exact kept.alone j other shared first second

/-- A command on another key leaves a lock alone. -/
theorem lock_of_redis {command : KeyValue.Command Key.Value} {symbol : String}
    (other : command.key ≠ .orderLock symbol) (choice : Choice) :
    (engineHandler (.redis command) choice world).2.redis (.orderLock symbol) =
      world.redis (.orderLock symbol) := by
  by_cases fails : choice.redisFails = true
  · simp [engineHandler, fails]
  · simp only [engineHandler, fails]
    exact command.apply_other world.redis other.symm

theorem lock_of_lockless {op : EngineOp} (lockless : op.Lockless) (choice : Choice)
    (symbol : String) :
    (engineHandler op choice world).2.redis (.orderLock symbol) =
      world.redis (.orderLock symbol) := by
  cases op with
  | redis command =>
      cases command with
      | get key =>
          by_cases fails : choice.redisFails = true
          · simp [engineHandler, fails]
          · simp [engineHandler, fails]
      | set key value => exact lock_of_redis (lockless.1 symbol) choice
      | setnx key value => exact lock_of_redis (lockless.1 symbol) choice
      | delete key => exact lock_of_redis (lockless.1 symbol) choice
      | modify key change => exact lock_of_redis (lockless.1 symbol) choice
  | database session statement =>
      by_cases fails : choice.dbFails = true
      · simp [engineHandler, fails]
      · simp [engineHandler, fails]
  | publish event =>
      by_cases fails : choice.redisFails = true
      · simp [engineHandler, fails]
      · simp [engineHandler, fails]
  | _ => rfl

/-- Such an operation leaves what its delivery owes. -/
theorem owed_of_lockless {op : EngineOp} (lockless : op.Lockless) (choice : Choice) :
    (lockWatcher record op choice world).symbol = record.symbol ∧
      (lockWatcher record op choice world).phase.owed = record.phase.owed := by
  cases op with
  | redis command =>
      cases command with
      | get key =>
          cases key with
          | paperPosition symbol =>
              by_cases fails : choice.redisFails = true
              · simp [lockWatcher, fails]
              · simp [lockWatcher, fails]
          | _ => exact ⟨rfl, rfl⟩
      | setnx key value =>
          cases key with
          | orderLock symbol => exact absurd rfl (lockless.1 symbol)
          | orderDedup dedup => exact absurd rfl (lockless.2 dedup)
          | _ => exact ⟨rfl, rfl⟩
      | delete key =>
          cases key with
          | orderLock symbol => exact absurd rfl (lockless.1 symbol)
          | _ => exact ⟨rfl, rfl⟩
      | _ => exact ⟨rfl, rfl⟩
  | _ => exact ⟨rfl, rfl⟩

theorem lockKept_lockless {op : EngineOp} (kept : LockKept world records) (lockless : op.Lockless)
    (choice : Choice) :
    LockKept (engineHandler op choice world).2
      (Function.update records i (lockWatcher (records i) op choice world)) := by
  obtain ⟨symbol, owed⟩ := @owed_of_lockless world (records i) op lockless choice
  exact (kept.weaken fun symbol => Or.inr (lock_of_lockless lockless choice symbol)).update symbol
    (Or.inr owed)

theorem lockKept_claim (kept : LockKept world records) (dedup value : String) (choice : Choice) :
    LockKept (engineHandler (.redis (.setnx (.orderDedup dedup) value)) choice world).2
      (Function.update records i
        (lockWatcher (records i) (.redis (.setnx (.orderDedup dedup) value)) choice world)) := by
  have locks : ∀ symbol, (engineHandler (.redis (.setnx (.orderDedup dedup) value)) choice
      world).2.redis (.orderLock symbol) = world.redis (.orderLock symbol) :=
    fun symbol => lock_of_redis Key.noConfusion choice
  refine (kept.weaken fun symbol => Or.inr (locks symbol)).update ?_ (Or.inr ?_)
  · by_cases fails : choice.redisFails = true
    · simp [lockWatcher, fails]
    · simp [lockWatcher, fails]
  · by_cases fails : choice.redisFails = true
    · simp [lockWatcher, fails]
    · simp [lockWatcher, fails]

theorem lockKept_take (kept : LockKept world records) {symbol value : String} (choice : Choice)
    (own : symbol = (records i).symbol)
    (terms : LockTerms world records i (.redis (.setnx (.orderLock symbol) value)) choice) :
    LockKept (engineHandler (.redis (.setnx (.orderLock symbol) value)) choice world).2
      (Function.update records i
        (lockWatcher (records i) (.redis (.setnx (.orderLock symbol) value)) choice world)) := by
  subst own
  by_cases fails : choice.redisFails = true
  · simpa [engineHandler, lockWatcher, fails] using kept
  · cases held : world.redis (.orderLock (records i).symbol) with
    | some owner =>
        have same : Function.update records i (records i) = records := Function.update_eq_self ..
        simpa [engineHandler, lockWatcher, fails, held, same,
          KeyValue.Command.apply_setnx_of_some value held] using kept
    | none =>
        have alone := terms.alone _ value rfl held
        have written : (engineHandler (.redis (.setnx (.orderLock (records i).symbol) value)) choice
            world).2 = world.write (.orderLock (records i).symbol) value := by
          simp only [engineHandler, fails]
          exact World.writeOnce_of_none world value held
        rw [written]
        refine kept.take ?_ ?_ alone
        · simp [lockWatcher, fails, held]
        · simp only [lockWatcher, fails, held]
          cases (records i).claimed with
          | false => rfl
          | true => rfl

theorem lockKept_release (kept : LockKept world records) {symbol value : String} (choice : Choice)
    (holding : (records i).phase = .holding value) :
    LockKept (engineHandler (.redis (.delete (.orderLock symbol))) choice world).2
      (Function.update records i
        (lockWatcher (records i) (.redis (.delete (.orderLock symbol))) choice world)) := by
  by_cases fails : choice.redisFails = true
  · have unchanged :
        (engineHandler (.redis (.delete (.orderLock symbol))) choice world).2 = world := by
      simp [engineHandler, fails]
    rw [unchanged]
    exact kept.update rfl (Or.inl (by simp [lockWatcher, fails, holding, LockPhase.lose,
      LockPhase.owed]))
  · have erased : (engineHandler (.redis (.delete (.orderLock symbol))) choice world).2 =
        expire symbol world := by
      simp only [engineHandler, fails]
      rfl
    rw [erased]
    exact (kept.expire symbol).update rfl (Or.inl (by simp [lockWatcher, fails, LockPhase.owed]))

theorem lockKept_step {op : EngineOp} (kept : LockKept world records)
    (sound : lockDiscipline.sound (records i) op) (choice : Choice)
    (terms : LockTerms world records i op choice) :
    LockKept (engineHandler op choice world).2
      (Function.update records i (lockWatcher (records i) op choice world)) := by
  have otherwise : op.Lockless → LockKept (engineHandler op choice world).2
      (Function.update records i (lockWatcher (records i) op choice world)) :=
    fun lockless => lockKept_lockless kept lockless choice
  cases op with
  | redis command =>
      cases command with
      | setnx key value =>
          cases key with
          | orderLock symbol => exact lockKept_take kept choice sound.1 terms
          | orderDedup dedup => exact lockKept_claim kept dedup value choice
          | _ => exact otherwise sound
      | delete key =>
          cases key with
          | orderLock symbol =>
              obtain ⟨-, value, holding⟩ := sound
              exact lockKept_release kept choice holding
          | _ => exact otherwise sound
      | _ => exact otherwise sound
  | _ => exact otherwise sound

theorem lockKept_kept :
    lockDiscipline.Kept engineHandler lockWatcher expire LockTerms (LockKept (ι := ι)) where
  relied _ _ _ _ _ terms := terms.read
  step _ _ _ _ choice kept sound terms := lockKept_step kept sound choice terms
  happen _ _ symbol kept := kept.expire symbol

/-- Deliveries that have not begun. -/
def deliveries (config : Config) (data : ι → Decision) (world : World) :
    Watched engineSignature Failure Unit World ι LockRecord where
  pool :=
    { world := world
      program := fun i => process config (data i) }
  record i := { symbol := (data i).orderSymbol }

/-- Deliveries after a schedule of their steps and of locks that run out. -/
def afterSchedule (config : Config) (data : ι → Decision) (world : World)
    (schedule : List (Move ι Choice String)) :
    Watched engineSignature Failure Unit World ι LockRecord :=
  (deliveries config data world).run engineHandler lockWatcher expire schedule

/-- A delivery about to remove a lock finds the value it wrote there, or nothing. -/
def RemovesOwn (watched : Watched engineSignature Failure Unit World ι LockRecord) : Prop :=
  ∀ i symbol, watched.pending i = some (.redis (.delete (.orderLock symbol))) →
    ∀ held, watched.pool.world.redis (.orderLock symbol) = some held →
      (watched.record i).phase = .holding held

/-- A delivery that has ended has released what it took, unless Redis failed at the release. -/
def ReleasesAll (watched : Watched engineSignature Failure Unit World ι LockRecord) : Prop :=
  ∀ i, watched.pending i = none → (watched.record i).phase.owed = none

/-- The lock is removed by its owners only, and by each of them. -/
structure LockOrder (watched : Watched engineSignature Failure Unit World ι LockRecord) : Prop where
  removes : RemovesOwn watched
  releases : ReleasesAll watched

/-- In every run on the terms every delivery keeps the order of the lock. -/
theorem lock_ordered (config : Config) (data : ι → Decision) (world : World)
    (schedule : List (Move ι Choice String))
    (obeys : (deliveries config data world).Obeys engineHandler lockWatcher expire LockTerms
      schedule) :
    LockOrder (afterSchedule config data world schedule) := by
  have start : lockDiscipline.Holds engineHandler lockWatcher LockKept
      (deliveries config data world) := by
    refine ⟨fun i => follows_process config (data i), ?_, ?_⟩
    · intro i value owed
      cases owed
    · intro i j _ owed
      exact absurd rfl owed
  have holds := start.run lockKept_kept schedule obeys
  rw [afterSchedule]
  constructor
  · intro i symbol pending held found
    obtain ⟨rfl, value, holding⟩ := (holds.programs i).sound pending
    rw [holding]
    rcases holds.invariant.key i value (by rw [holding]; rfl) with gone | own
    · exact absurd (found.symm.trans gone) (by simp)
    · rw [Option.some.inj (own.symm.trans found)]
  · intro i ended
    exact (holds.programs i).finished ended

/-- A single delivery with a healthy Redis is on the terms. -/
theorem obeys_of_healthy [Subsingleton ι]
    {watched : Watched engineSignature Failure Unit World ι LockRecord}
    {schedule : List (Move ι Choice String)}
    (healthy : ∀ i choice, .step i choice ∈ schedule → choice.redisFails = false) :
    watched.Obeys engineHandler lockWatcher expire LockTerms schedule := by
  induction schedule generalizing watched with
  | nil => trivial
  | cons move schedule induction =>
      refine ⟨?_, induction fun i choice member => healthy i choice (List.mem_cons_of_mem _ member)⟩
      cases move with
      | happen symbol => trivial
      | step i choice =>
          intro op _
          exact ⟨fun _ _ _ _ j different => absurd (Subsingleton.elim j i) different,
            fun _ _ _ _ => healthy i choice (List.mem_cons_self ..)⟩

end

/-- A buy keeps the order of the lock from its entry to its end, with the lock running out under
it. -/
theorem lock_ordered_buy :
    LockOrder (afterSchedule {} (fun _ : Unit => bitcoinDecision "buy") freshWorld
      (List.replicate 20 (.step () {}) ++ [.happen "BTC/USD"] ++
        List.replicate 20 (.step () {}))) :=
  lock_ordered {} (fun _ : Unit => bitcoinDecision "buy") freshWorld _
    (obeys_of_healthy fun i choice member => by
      simp only [List.mem_append, List.mem_replicate, List.mem_singleton, Move.step.injEq,
        reduceCtorEq, or_false] at member
      rcases member with ⟨-, -, rfl⟩ | ⟨-, -, rfl⟩
      · rfl
      · rfl)

def removesLock (symbol : String) : Option EngineOp → Bool
  | some (.redis (.delete (.orderLock locked))) => locked = symbol
  | _ => false

theorem eq_of_removesLock {symbol : String} {op : Option EngineOp}
    (removes : removesLock symbol op = true) :
    op = some (.redis (.delete (.orderLock symbol))) := by
  unfold removesLock at removes
  split at removes
  · rw [of_decide_eq_true removes]
  · cases removes

/-- Sells of two strategies: the lock of the first runs out, the second takes it, and the first goes
on to its release. -/
def overtaken : Watched engineSignature Failure Unit World Bool LockRecord :=
  afterSchedule {}
    (fun second =>
      { bitcoinDecision "sell" with
        strategyId := some (if second then "reversion" else "momentum") })
    freshWorld
    (List.replicate 11 (.step false { dbAvailable := false, uuid := "first" }) ++
      [.happen "BTC/USD"] ++
      List.replicate 11 (.step true { dbAvailable := false, uuid := "second" }) ++
      List.replicate 3 (.step false { dbAvailable := false, uuid := "first" }))

/-- A sell on the database path that Redis fails right after the lock is taken. -/
def unread : Watched engineSignature Failure Unit World Bool LockRecord :=
  afterSchedule {} (fun _ => bitcoinDecision "sell") freshWorld
    (List.replicate 10 (.step false {}) ++ [.step false { redisFails := true }])

/-- A delivery whose lock has run out removes the lock of the next one; and on the database path a
delivery that cannot read the position leaves its lock behind. -/
theorem lock_disordered :
    (¬∀ (config : Config) (data : Bool → Decision) (world : World)
        (schedule : List (Move Bool Choice String)),
        RemovesOwn (afterSchedule config data world schedule)) ∧
      ¬∀ (config : Config) (data : Bool → Decision) (world : World)
        (schedule : List (Move Bool Choice String)),
        ReleasesAll (afterSchedule config data world schedule) := by
  constructor
  · intro always
    have own : RemovesOwn overtaken := always _ _ _ _
    have pending : overtaken.pending false = some (.redis (.delete (.orderLock "BTC/USD"))) :=
      eq_of_removesLock (by decide +kernel)
    have held : overtaken.pool.world.redis (.orderLock "BTC/USD") = some "second" := by
      decide +kernel
    have phase : (overtaken.record false).phase = .holding "first" := by decide +kernel
    have kept := own false "BTC/USD" pending "second" held
    rw [phase] at kept
    exact absurd kept (by decide)
  · intro always
    have releases : ReleasesAll unread := always _ _ _ _
    have ended : unread.pending false = none := by
      rw [← Option.isNone_iff_eq_none]
      decide +kernel
    have owed : (unread.record false).phase.owed = some "uuid" := by decide +kernel
    exact absurd ((releases false ended).symm.trans owed) (by decide)

end TradingControl
