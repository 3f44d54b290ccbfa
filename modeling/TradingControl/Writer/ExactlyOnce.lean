import TradingControl.Python.Reference
import TradingControl.Writer.SafeWriter

/-!
# Messages that are written once

Every write is one transaction that claims its message last, so the tables are at any time what the
writes of a log of distinct messages have made of them.
-/

namespace TradingControl.Writer

open Effects Python

/-! ## Business effects -/

/-- A row with the values is added; the database fills in the rest. -/
def AddsRow (table : Table) (values : Row) (before after : Database) : Prop :=
  ∃ generated, after = before.add table (values ++ generated)

/-- An order and its event are added. -/
def AddsOrder (msgId : String) (data : Payload) (before after : Database) : Prop :=
  ∃ generated, AddsRow .events (eventValues "order.created" "order"
      (get (orderValues data ++ generated) "id") data ++ [("idempotency_key", .str msgId)])
    (before.add .orders (orderValues data ++ generated)) after

/-- The event of an execution is added, its order is found and written, and so is its position. -/
def AddsExecution (data : Payload) (before after : Database) : Prop :=
  ∃ added filled first second rowcount,
    AddsRow .events (eventValues "order.filled" "order" (get data "order_id") data) before added ∧
    (Statement.updateOrder (get data "order_id") (SafeWriter.filledValues data)).run first added =
      .ok (rowcount, filled) ∧ rowcount ≠ 0 ∧
    (Statement.upsertPosition (SafeWriter.positionValues data)
      (SafeWriter.positionChanges data)).run second filled = .ok ((), after)

def AddsMetric (id : ℕ) (metric : Metric) : Database → Database → Prop :=
  AddsRow .systemMetrics (("id", .int id) :: SafeWriter.metricValues metric)

/-- A metric is added unless there is one with the id. -/
def AddsNewMetric (id : ℕ) (metric : Metric) (before after : Database) : Prop :=
  if (before.rows .systemMetrics).any (columnIs "id" (.int id)) then after = before
  else AddsMetric id metric before after

/-- What a write does to the tables, apart from the claim. -/
def Business (addsMetric : ℕ → Metric → Database → Database → Prop) (writer : SafeWriter)
    (call : Call) (before after : Database) : Prop :=
  match call.write with
  | .order msgId _ data =>
      writer.checkOrder msgId data = .ok () ∧ AddsOrder msgId data before after
  | .execution msgId _ data =>
      writer.checkExecution msgId data = .ok () ∧ AddsExecution data before after
  | .row kind msgId _ data =>
      ∃ values, kind.writer.values writer call.now msgId data = .ok values ∧
        AddsRow kind.writer.table values before after
  | .systemMetric msgId metric =>
      ∃ id, writer.checkMetric msgId metric = .ok id ∧ addsMetric id metric before after

/-- The message is claimed. -/
def Claims (write : Write) (before after : Database) : Prop :=
  ∃ processed, before.processed.insert write.msgId write.stream = some processed ∧
    after = { before with processed }

/-- What a call does: its business effect and its claim. -/
def Effect (addsMetric : ℕ → Metric → Database → Database → Prop) (writer : SafeWriter)
    (call : Call) (before after : Database) : Prop :=
  ∃ written, Business addsMetric writer call before written ∧ Claims call.write written after

/-- The call has returned. -/
def succeeded : Except WriteError Bool → Bool
  | .ok _ => true
  | .error _ => false

def commitRaised : Except WriteError Bool → Bool
  | .error (.commitFailed _) => true
  | _ => false

/-- Every message is written once or not at all, whatever fails: at any time the tables are what the
effects of distinct messages make of them, all of calls that succeeded or are `uncertain`. -/
structure ExactlyOnce (effect : Call → Database → Database → Prop)
    (uncertain : Except WriteError Bool → Bool) (writer : SafeWriter) (calls : List Call)
    (start : Database) : Prop where
  moments : ∀ moment ∈ writer.service.moments calls start,
    ∃ log, Recorded effect start log moment ∧
      log.Sublist (writer.service.answered
        (fun answer => succeeded answer || uncertain answer) calls start) ∧
      moment.processed.ids = start.processed.ids ++ log.map (fun call => call.write.msgId) ∧
      moment.processed.ids.Nodup
  /-- What succeeded is there in the end. -/
  succeeds : ∃ log, Recorded effect start log (writer.service.after calls start) ∧
    (writer.service.answered succeeded calls start).Sublist log ∧
    log.Sublist (writer.service.answered (fun answer => succeeded answer || uncertain answer)
      calls start)
  /-- What raises leaves the tables as they were. -/
  raises : ∀ earlier call later error, calls = earlier ++ call :: later →
    (writer.service.serve call (writer.service.after earlier start)).1 = .error error →
      uncertain (.error error) = false →
        (writer.service.serve call (writer.service.after earlier start)).2 =
          writer.service.after earlier start

/-! ## Bodies -/

section Bodies

variable {writer : SafeWriter} {database : Database} {msgId stream : String}

theorem statementsOnly_perform (query : Statement) : StatementsOnly (perform query) :=
  statementsOnly_statement query

theorem statementsOnly_ofExcept {α : Type} (decided : Except WriteError α) :
    StatementsOnly (.ofExcept decided : Writing α) :=
  Program.calls_ofExcept decided

theorem statementsOnly_claimInline (msgId stream : String) :
    StatementsOnly (claimInline msgId stream) :=
  Program.calls_bind (statementsOnly_perform _) fun _ => Program.calls_ret _

theorem statementsOnly_claimMessage (msgId stream : String) :
    StatementsOnly (claimMessage msgId stream) := by
  refine Program.calls_bind (Program.calls_bind (Program.calls_attempt (statementsOnly_perform _))
    fun outcome => ?_) fun _ => Program.calls_ret _
  cases outcome with
  | ok claimed => exact Program.calls_ret _
  | error error =>
      dsimp only
      split
      · exact Program.calls_ret _
      · exact Program.calls_raise _

theorem run_of_postgres {query : Statement} {choice : DatabaseChoice} {answer : query.Answer}
    {after : Database} (ran : postgres.run query choice database = .ok (answer, after)) :
    query.run choice database = .ok (answer, after) := by
  simp only [postgres] at ran
  split at ran
  · cases ran
  · exact ran

theorem insert_of_claim {choice : DatabaseChoice} {answer : Option String} {after : Database}
    (ran : postgres.run (.claim msgId stream) choice database = .ok (answer, after))
    (claimed : answer.isSome = true) :
    ∃ processed, database.processed.insert msgId stream = some processed ∧
      after = { database with processed } := by
  have result := run_of_postgres ran
  simp only [Statement.run] at result
  cases inserted : database.processed.insert msgId stream with
  | none =>
      rw [inserted] at result
      obtain ⟨rfl, -⟩ := Prod.mk.inj (Except.ok.inj result)
      cases claimed
  | some processed =>
      rw [inserted] at result
      exact ⟨processed, rfl, (congrArg Prod.snd (Except.ok.inj result)).symm⟩

theorem yields_claimInline : postgres.Yields (claimInline msgId stream) database
    fun claimed after => claimed = true → ∃ processed,
      database.processed.insert msgId stream = some processed ∧
        after = { database with processed } := by
  refine Dialect.yields_statement_bind fun choice answer after ran => ?_
  exact Dialect.yields_ret (insert_of_claim ran)

theorem yields_claimMessage : postgres.Yields (claimMessage msgId stream) database
    fun claimed after => claimed = true → ∃ processed,
      database.processed.insert msgId stream = some processed ∧
        after = { database with processed } := by
  refine Dialect.yields_bind (fun _ => Program.calls_ret _)
    (Dialect.yields_tryCatch (fun error => ?_) fun choice answer after ran => insert_of_claim ran)
    fun answer after holds => ?_
  · split
    · exact Program.calls_ret _
    · exact Program.calls_raise _
  · exact Dialect.yields_ret holds

/-- What a checked condition gives. -/
theorem of_require {holds : Bool} {text : String} {value : Unit}
    (checked : require holds text = .ok value) : holds = true := by
  cases holds with
  | true => rfl
  | false => cases checked

/-- The end of a writer: the claim that is required, and what follows it. -/
theorem yields_claimed {claim : Writing Bool} {rest : Writing Bool} (only : StatementsOnly rest)
    (write : Write) {text : String} {post : Bool → Database → Prop}
    (claims : postgres.Yields claim database fun claimed after => claimed = true →
      ∃ processed, database.processed.insert write.msgId write.stream = some processed ∧
        after = { database with processed })
    (next : ∀ after, Claims write database after → postgres.Yields rest after post) :
    postgres.Yields (claim.bind fun claimed =>
      (Program.ofExcept (require claimed text)).bind fun _ => rest) database post := by
  refine Dialect.yields_bind (fun claimed => Program.calls_bind (statementsOnly_ofExcept _)
    fun _ => only) claims fun claimed after holds => ?_
  exact Dialect.yields_ofExcept_bind fun _ checked => next after (holds (of_require checked))

end Bodies

/-! ## Writers -/

/-- A program that has its effect or none: where it raises it has none, unless the commit raised. -/
structure Atomic (program : Writing Bool) (effect : Database → Database → Prop) : Prop where
  exec : ∀ choices database,
    (∃ error, (program.exec postgres.handler choices { durable := database }).1 = .error error ∧
      (program.exec postgres.handler choices { durable := database }).2.durable = database) ∨
    effect database (program.exec postgres.handler choices { durable := database }).2.durable ∧
      (succeeded (program.exec postgres.handler choices { durable := database }).1 ||
        commitRaised (program.exec postgres.handler choices { durable := database }).1) = true
  visits : ∀ choices database,
    ∀ visited ∈ program.visits postgres.handler choices { durable := database },
      visited.durable = database ∨ visited.durable =
        (program.exec postgres.handler choices { durable := database }).2.durable

/-- A writer checks the id of the message, and opens a transaction. -/
theorem atomic_of_body {guard : Prop} [Decidable guard] {error : WriteError}
    {body : Writing Bool} {effect : Database → Database → Prop} (only : StatementsOnly body)
    (yields : ∀ database, postgres.Yields body database fun _ after => effect database after) :
    Atomic (if guard then .raise error else transaction body) effect := by
  by_cases guarded : guard
  · rw [if_pos guarded]
    exact ⟨fun choices database => .inl ⟨error, rfl, rfl⟩,
      fun choices database visited member => nomatch member⟩
  · rw [if_neg guarded]
    refine ⟨fun choices database => ?_, fun choices database visited member =>
      Dialect.visits_transaction only member⟩
    have result := @Dialect.exec_transaction _ _ _ _ _ _ _ body _ only ⟨database, none⟩
      (yields database) choices
    rcases result with failed | ⟨value, holds, outcome⟩
    · exact .inl failed
    · refine .inr ⟨holds, ?_⟩
      rcases outcome with returned | ⟨choice, raised, fails, isError⟩
      · rw [returned]
        rfl
      · rw [isError]
        simp only [postgres, Option.map_eq_some_iff, Prod.mk.injEq] at fails
        obtain ⟨cause, -, rfl, -⟩ := fails
        rfl

section Writers

variable {writer : SafeWriter} {call : Call} {msgId stream : String} {data : Payload}
  {addsMetric : ℕ → Metric → Database → Database → Prop}

theorem statementsOnly_claim (kind : RowKind) (msgId stream : String) :
    StatementsOnly (kind.writer.claim msgId stream) := by
  cases kind with
  | agentLog => exact statementsOnly_claimInline msgId stream
  | _ => exact statementsOnly_claimMessage msgId stream

theorem yields_claim (kind : RowKind) {database : Database} :
    postgres.Yields (kind.writer.claim msgId stream) database
      fun claimed after => claimed = true → ∃ processed,
        database.processed.insert msgId stream = some processed ∧
          after = { database with processed } := by
  cases kind with
  | agentLog => exact yields_claimInline
  | _ => exact yields_claimMessage

theorem addsRow_of_run {table : Table} {values answer : Row} {choice : DatabaseChoice}
    {before after : Database}
    (ran : postgres.run (.insert table values) choice before = .ok (answer, after)) :
    answer = values ++ choice.generated ∧
      after = before.add table (values ++ choice.generated) := by
  have result := run_of_postgres ran
  obtain ⟨rfl, rfl⟩ := Prod.mk.inj (Except.ok.inj result)
  exact ⟨rfl, rfl⟩

theorem atomic_row {kind : RowKind} (isRow : call.write = .row kind msgId stream data) :
    Atomic (kind.writer.write writer call.now msgId stream data)
      (Effect addsMetric writer call) := by
  refine atomic_of_body ?_ fun database => ?_
  · exact Program.calls_bind (statementsOnly_ofExcept _) fun _ =>
      Program.calls_bind (statementsOnly_perform _) fun _ =>
        Program.calls_bind (statementsOnly_claim kind msgId stream) fun _ =>
          Program.calls_bind (statementsOnly_ofExcept _) fun _ =>
            Program.calls_bind (statementsOnly_ofExcept _) fun _ => Program.calls_ret _
  · refine Dialect.yields_ofExcept_bind fun values checked => ?_
    refine Dialect.yields_statement_bind fun choice answer written ran => ?_
    have adds := (addsRow_of_run ran).2
    refine yields_claimed (Program.calls_bind (statementsOnly_ofExcept _) fun _ =>
      Program.calls_ret _) call.write ?_ fun after claims => ?_
    · rw [isRow]
      exact yields_claim kind
    · refine Dialect.yields_ofExcept_bind fun _ logged => Dialect.yields_ret ?_
      refine ⟨written, ?_, claims⟩
      rw [Business, isRow]
      exact ⟨values, checked, choice.generated, adds⟩

theorem atomic_systemMetric {metric : Metric} (isMetric : call.write = .systemMetric msgId metric) :
    Atomic (writer.writeSystemMetric msgId metric) (Effect AddsNewMetric writer call) := by
  refine atomic_of_body ?_ fun database => ?_
  · exact Program.calls_bind (statementsOnly_ofExcept _) fun _ =>
      Program.calls_bind (statementsOnly_perform _) fun _ =>
        Program.calls_bind (statementsOnly_claimMessage msgId _) fun _ =>
          Program.calls_bind (statementsOnly_ofExcept _) fun _ => Program.calls_ret _
  · refine Dialect.yields_ofExcept_bind fun id checked => ?_
    refine Dialect.yields_statement_bind fun choice rowcount written ran => ?_
    have adds : AddsNewMetric id metric database written := by
      have result := run_of_postgres ran
      simp only [Statement.run] at result
      rw [AddsNewMetric]
      split at result
      · next held =>
          rw [if_pos held]
          exact (congrArg Prod.snd (Except.ok.inj result)).symm
      · next fresh =>
          rw [if_neg fresh]
          exact ⟨choice.generated, (congrArg Prod.snd (Except.ok.inj result)).symm⟩
    refine yields_claimed (Program.calls_ret _) call.write ?_ fun after claims => ?_
    · rw [isMetric]
      exact yields_claimMessage
    · refine Dialect.yields_ret ⟨written, ?_, claims⟩
      rw [Business, isMetric]
      exact ⟨id, checked, adds⟩

theorem statementsOnly_existingOrder (error : WriteError) :
    StatementsOnly (writer.existingOrder data error) := by
  rw [SafeWriter.existingOrder.eq_def]
  split
  · refine Program.calls_bind (statementsOnly_perform _) fun found => ?_
    split <;> exact Program.calls_raise _
  · exact Program.calls_raise _

theorem statementsOnly_addOrder : StatementsOnly (writer.addOrder data) := by
  refine Program.calls_bind (Program.calls_attempt (statementsOnly_perform _)) fun outcome => ?_
  cases outcome with
  | ok order => exact Program.calls_ret _
  | error error => exact statementsOnly_existingOrder error

/-- An order that could not be inserted aborts the transaction. -/
theorem yields_addOrder {database : Database} : postgres.Yields (writer.addOrder data) database
    fun order added => ∃ generated, order = orderValues data ++ generated ∧
      added = database.add .orders (orderValues data ++ generated) :=
  Dialect.yields_tryCatch statementsOnly_existingOrder fun choice _ _ ran =>
    ⟨choice.generated, addsRow_of_run ran⟩

/-- `write_order`. -/
theorem atomic_order (isOrder : call.write = .order msgId stream data) :
    Atomic (writer.writeOrder msgId stream data) (Effect addsMetric writer call) := by
  have rest : ∀ order, StatementsOnly (do
      let _ ← perform (.insert .events (eventValues "order.created" "order" (get order "id") data
        ++ [("idempotency_key", .str msgId)]))
      perform (.addClaim msgId stream)
      return true) := fun order =>
    Program.calls_bind (statementsOnly_perform _) fun _ =>
      Program.calls_bind (statementsOnly_perform _) fun _ => Program.calls_ret _
  refine atomic_of_body ?_ fun database => ?_
  · exact Program.calls_bind (statementsOnly_ofExcept _) fun _ =>
      Program.calls_bind statementsOnly_addOrder rest
  · refine Dialect.yields_ofExcept_bind fun _ checked => ?_
    refine Dialect.yields_bind rest yields_addOrder fun order added ordered => ?_
    obtain ⟨generated, rfl, rfl⟩ := ordered
    refine Dialect.yields_statement_bind fun choice event written ran => ?_
    refine Dialect.yields_statement_bind fun claimChoice _ after claimRan => ?_
    have claims : Claims call.write written after := by
      have result := run_of_postgres claimRan
      simp only [Statement.run] at result
      rw [Claims, isOrder]
      cases inserted : written.processed.insert msgId stream with
      | none =>
          rw [inserted] at result
          cases result
      | some processed =>
          rw [inserted] at result
          exact ⟨processed, inserted, (congrArg Prod.snd (Except.ok.inj result)).symm⟩
    refine Dialect.yields_ret ⟨written, ?_, claims⟩
    rw [Business, isOrder]
    exact ⟨checked, generated, choice.generated, (addsRow_of_run ran).2⟩

/-- `write_execution`. -/
theorem atomic_execution (isExecution : call.write = .execution msgId stream data) :
    Atomic (writer.writeExecution msgId stream data) (Effect addsMetric writer call) := by
  refine atomic_of_body ?_ fun database => ?_
  · exact Program.calls_bind (statementsOnly_ofExcept _) fun _ =>
      Program.calls_bind (statementsOnly_perform _) fun _ =>
        Program.calls_bind (statementsOnly_perform _) fun _ =>
          Program.calls_bind (statementsOnly_ofExcept _) fun _ =>
            Program.calls_bind (statementsOnly_perform _) fun _ =>
              Program.calls_bind (statementsOnly_claimInline msgId stream) fun _ =>
                Program.calls_bind (statementsOnly_ofExcept _) fun _ => Program.calls_ret _
  · refine Dialect.yields_ofExcept_bind fun _ checked => ?_
    refine Dialect.yields_statement_bind fun eventChoice _ added eventRan => ?_
    refine Dialect.yields_statement_bind fun orderChoice rowcount filled orderRan => ?_
    refine Dialect.yields_ofExcept_bind fun _ found => ?_
    refine Dialect.yields_statement_bind fun positionChoice _ written positionRan => ?_
    refine yields_claimed (Program.calls_ret _) call.write ?_ fun after claims => ?_
    · rw [isExecution]
      exact yields_claimInline
    · refine Dialect.yields_ret ⟨written, ?_, claims⟩
      rw [Business, isExecution]
      exact ⟨checked, added, filled, orderChoice, positionChoice, rowcount,
        ⟨eventChoice.generated, (addsRow_of_run eventRan).2⟩, run_of_postgres orderRan,
        of_decide_eq_true (of_require found), run_of_postgres positionRan⟩

theorem atomic_write (writer : SafeWriter) (call : Call) :
    Atomic (call.write.program writer call.now) (Effect AddsNewMetric writer call) := by
  cases isWrite : call.write with
  | order msgId stream data => exact atomic_order isWrite
  | execution msgId stream data => exact atomic_execution isWrite
  | row kind msgId stream data => exact atomic_row isWrite
  | systemMetric msgId metric => exact atomic_systemMetric isWrite

end Writers

/-! ## Runs -/

theorem once_service (writer : SafeWriter) :
    writer.service.Once (Effect AddsNewMetric writer) succeeded commitRaised where
  serve call database := by
    rcases (atomic_write writer call).exec call.choices database with
      ⟨error, isError, same⟩ | done
    · refine .inl ⟨?_, same⟩
      exact congrArg succeeded isError
    · exact .inr done
  during call database visited member := by
    obtain ⟨world, isVisited, rfl⟩ := List.mem_map.mp member
    exact (atomic_write writer call).visits call.choices database world isVisited

/-- The business effect of a call touches no claim. -/
theorem Business.processed_eq {addsMetric : ℕ → Metric → Database → Database → Prop}
    (keeps : ∀ id metric before after, addsMetric id metric before after →
      after.processed = before.processed) {writer : SafeWriter} {call : Call}
    {before after : Database} (business : Business addsMetric writer call before after) :
    after.processed = before.processed := by
  rw [Business] at business
  cases isWrite : call.write with
  | order msgId stream data =>
      rw [isWrite] at business
      obtain ⟨-, ordered, generated, rfl⟩ := business
      rfl
  | execution msgId stream data =>
      rw [isWrite] at business
      obtain ⟨-, added, filled, first, second, rowcount, ⟨generated, rfl⟩, orderRan, -,
        positionRan⟩ := business
      have isFilled := (congrArg Prod.snd (Except.ok.inj orderRan)).symm
      subst isFilled
      simp only [Statement.run] at positionRan
      split at positionRan
      · exact (congrArg (fun result => result.2.processed) (Except.ok.inj positionRan)).symm
      · exact (congrArg (fun result => result.2.processed) (Except.ok.inj positionRan)).symm
  | row kind msgId stream data =>
      rw [isWrite] at business
      obtain ⟨values, -, generated, rfl⟩ := business
      rfl
  | systemMetric msgId metric =>
      rw [isWrite] at business
      obtain ⟨id, -, adds⟩ := business
      exact keeps id metric before after adds

theorem processed_addsMetric (id : ℕ) (metric : Metric) (before after : Database)
    (adds : AddsMetric id metric before after) : after.processed = before.processed := by
  obtain ⟨generated, rfl⟩ := adds
  rfl

theorem processed_addsNewMetric (id : ℕ) (metric : Metric) (before after : Database)
    (adds : AddsNewMetric id metric before after) : after.processed = before.processed := by
  rw [AddsNewMetric] at adds
  split at adds
  · rw [adds]
  · exact processed_addsMetric id metric before after adds

theorem Effect.ids_eq {addsMetric : ℕ → Metric → Database → Database → Prop}
    (keeps : ∀ id metric before after, addsMetric id metric before after →
      after.processed = before.processed) {writer : SafeWriter} {call : Call}
    {before after : Database} (effect : Effect addsMetric writer call before after) :
    after.processed.ids = before.processed.ids ++ [call.write.msgId] := by
  obtain ⟨written, business, processed, inserted, rfl⟩ := effect
  rw [← business.processed_eq keeps]
  exact ProcessedEvents.ids_insert inserted

/-- Whatever calls are made and whatever fails, every message is written once or not at all. -/
theorem exactlyOnce_service (writer : SafeWriter) (calls : List Call) (start : Database) :
    ExactlyOnce (Effect AddsNewMetric writer) commitRaised writer calls start where
  moments moment member := by
    obtain ⟨log, recorded, only⟩ := (once_service writer).moments calls start moment member
    refine ⟨log, recorded, only, ?_, moment.processed.distinct⟩
    exact recorded.keys_eq fun call before after effect => effect.ids_eq processed_addsNewMetric
  succeeds := (once_service writer).after calls start
  raises earlier call later error _ isError certain := by
    rcases (once_service writer).serve call (writer.service.after earlier start) with
      ⟨-, same⟩ | ⟨-, counted⟩
    · exact same
    · rw [isError, certain] at counted
      cases counted

/-! ## Metrics that are spelled in two ways -/

/-- The digits of a hexadecimal number. -/
def hexDigit (c : Char) : Option ℕ :=
  if '0' ≤ c ∧ c ≤ '9' then some (c.toNat - '0'.toNat)
  else if 'a' ≤ c ∧ c ≤ 'f' then some (c.toNat - 'a'.toNat + 10)
  else if 'A' ≤ c ∧ c ≤ 'F' then some (c.toNat - 'A'.toNat + 10)
  else none

/-- A writer for ids of ASCII letters and digits. -/
def asciiWriter : SafeWriter where
  runtime := Reference.runtime
  fromIsoFormat _ := none
  isAlnum := Char.isAlphanum
  parseHex text := text.toList.foldlM (fun number c => (hexDigit c).map (16 * number + ·)) 0

def monitored (msgId metricName : String) (choices : Nat → DatabaseChoice) : Call where
  write := .systemMetric msgId {
    metricName := .str metricName, metricValue := .float 1, metricUnit := .none, tags := .dict []
    schemaVersion := "v2", source := "system_monitor", timestamp := "2025-01-02T15:04:05+00:00" }
  now := "2025-01-02T15:04:05+00:00"
  choices := choices

/-- Two metrics whose ids are one UUID in lower and in upper case. -/
def respelled : List Call :=
  [monitored "0123456789abcdef0123456789abcdef" "queue_depth" fun _ => {},
    monitored "0123456789ABCDEF0123456789ABCDEF" "error_rate" fun _ => {}]

/-- A metric whose commit is applied, and whose answer is lost. -/
def unanswered : Call :=
  monitored "0123456789abcdef0123456789abcdef" "queue_depth" fun position =>
    if position = 3 then { error := some .otherError, applied := true } else {}

/-- As many metrics are added as messages are claimed. -/
theorem Effect.metrics_length {writer : SafeWriter} {msgId metricName : String}
    {choices : Nat → DatabaseChoice} {before after : Database}
    (effect : Effect AddsMetric writer (monitored msgId metricName choices) before after) :
    (after.rows .systemMetrics).length = (before.rows .systemMetrics).length + 1 := by
  obtain ⟨written, ⟨id, -, generated, rfl⟩, processed, -, rfl⟩ := effect
  simp [Database.add]

theorem not_exactlyOnce_respelled :
    ¬ExactlyOnce (Effect AddsMetric asciiWriter) (fun _ => false) asciiWriter respelled {} ∧
      ¬ExactlyOnce (Effect AddsMetric asciiWriter) (fun _ => false) asciiWriter [unanswered]
        {} := by
  constructor
  · intro once
    obtain ⟨log, recorded, -, only⟩ := once.succeeds
    have step : ∀ call ∈ log, ∀ before after, Effect AddsMetric asciiWriter call before after →
        (before.rows .systemMetrics).length = before.processed.ids.length →
          (after.rows .systemMetrics).length = after.processed.ids.length := by
      intro call member before after effect same
      have claimed := congrArg List.length (effect.ids_eq processed_addsMetric)
      rw [List.length_append, List.length_singleton] at claimed
      have isCall := (only.trans (asciiWriter.service.answered_sublist _ _ _)).subset member
      rw [respelled, List.mem_cons, List.mem_singleton] at isCall
      rcases isCall with rfl | rfl
      · rw [effect.metrics_length, same, claimed]
      · rw [effect.metrics_length, same, claimed]
    have balanced := @Recorded.keeps _ _ _ _ _ _ recorded (fun database =>
      (database.rows .systemMetrics).length = database.processed.ids.length) rfl step
    have one : ((asciiWriter.service.after respelled {}).rows .systemMetrics).length = 1 := by
      decide +kernel
    have two : (asciiWriter.service.after respelled {}).processed.ids.length = 2 := by
      decide +kernel
    rw [one, two] at balanced
    cases balanced
  · intro once
    have same := once.raises [] unanswered [] (.commitFailed .otherError) rfl rfl rfl
    have one : ((asciiWriter.service.serve unanswered {}).2.rows .systemMetrics).length = 1 := by
      decide +kernel
    have none := congrArg (fun database => (database.rows .systemMetrics).length) same
    exact absurd (one.symm.trans none) (by decide)

end TradingControl.Writer
