import Mathlib
import TradingControl.Python.Reference

/-!
# Reconciliation of orders

`OrderReconciler.run_once` compares the orders that have been open for two minutes with the records
of the paper broker.  One run is one transaction: where a record cannot be read or a statement
fails, nothing of the run is kept.
-/

namespace TradingControl.OrderReconciler

open Python

/-! ## Tables -/

structure OrderRow where
  id : String
  brokerOrderId : Option String
  status : String
  /-- In microseconds. -/
  createdAt : ℤ
deriving DecidableEq

structure Discrepancy where
  orderId : String
  brokerOrderId : String
  dbStatus : String
  brokerStatus : Value

structure ReconciliationRow where
  orderId : String
  discrepancy : Discrepancy
  resolved : Bool

structure AuditRow where
  eventType : String
  payload : Discrepancy

/-- The tables of a run; `id` is the primary key of the orders. -/
@[ext] structure Database where
  orders : List OrderRow
  distinct : (orders.map OrderRow.id).Nodup
  orderReconciliation : List ReconciliationRow
  auditLog : List AuditRow

inductive Failure where
  | raised (error : Raised)
  /-- The database refuses a value. -/
  | dataError

/-- What a column of so many characters keeps of a text; only spaces may be cut off. -/
def varchar (width : ℕ) (text : String) : Option String :=
  if '\x00' ∈ text.toList then none
  else if text.length ≤ width then some text
  else if ∀ letter ∈ text.toList.drop width, letter = ' ' then
    some (String.ofList (text.toList.take width))
  else none

def OrderRow.setStatus (orderId status : String) (row : OrderRow) : OrderRow :=
  if row.id = orderId then { row with status := status } else row

@[simp] theorem OrderRow.id_setStatus (orderId status : String) (row : OrderRow) :
    (row.setStatus orderId status).id = row.id := by
  unfold OrderRow.setStatus
  split <;> rfl

namespace Database

/-- `UPDATE orders SET status = :status WHERE id = :order_id`, of a text the column holds. -/
def setStatus (db : Database) (orderId status : String) : Database where
  orders := db.orders.map (OrderRow.setStatus orderId status)
  distinct := by
    have kept : OrderRow.id ∘ OrderRow.setStatus orderId status = OrderRow.id :=
      funext (OrderRow.id_setStatus orderId status)
    rw [List.map_map, kept]
    exact db.distinct
  orderReconciliation := db.orderReconciliation
  auditLog := db.auditLog

/-- `UPDATE orders SET status = :status WHERE id = :order_id`. -/
def updateStatus (db : Database) (orderId : String) : Value → Except Failure Database
  | .str status =>
      match varchar 32 status with
      | some stored => .ok (db.setStatus orderId stored)
      | none => .error .dataError
  | _ => .error .dataError

/-- `INSERT INTO order_reconciliation`. -/
def insertReconciliation (db : Database) (orderId : String) (discrepancy : Discrepancy) :
    Database :=
  { db with
    orderReconciliation :=
      db.orderReconciliation ++
        [{ orderId := orderId, discrepancy := discrepancy, resolved := true }] }

/-- `INSERT INTO audit_log`. -/
def insertAuditLog (db : Database) (discrepancy : Discrepancy) : Database :=
  { db with
    auditLog := db.auditLog ++ [{ eventType := "order_reconciled", payload := discrepancy }] }

/-- `SELECT … WHERE status IN ('pending', 'partial') AND created_at < :cutoff`. -/
def selectOpen (db : Database) (cutoff : ℤ) : List OrderRow :=
  db.orders.filter fun row =>
    (row.status = "pending" || row.status = "partial") && row.createdAt < cutoff

end Database

/-! ## The run -/

/-- The broker, as far as its records are read: Redis and the interpreter that decodes its texts. -/
structure Broker where
  runtime : Runtime
  depth : ℕ
  redis : String → Option String

/-- `PaperBroker.get_order_status`. -/
def Broker.getOrderStatus (broker : Broker) (brokerOrderId : String) : Except Raised Value :=
  match broker.redis ("paper:order:" ++ brokerOrderId) with
  | none => .ok .none
  | some raw => if raw = "" then .ok .none else Json.loads broker.runtime broker.depth raw

/-- `str(row["broker_order_id"])`. -/
def OrderRow.brokerKey (row : OrderRow) : String := row.brokerOrderId.getD "None"

/-- `_build_discrepancy`. -/
def buildDiscrepancy (row : OrderRow) : Value → Except Raised (Option Discrepancy)
  | .none =>
      .ok (some
        { orderId := row.id
          brokerOrderId := row.brokerKey
          dbStatus := row.status
          brokerStatus := .str "missing" })
  | .dict entries =>
      let status := (Value.get entries "status").getD .none
      if status.isText row.status then .ok none
      else
        .ok (some
          { orderId := row.id
            brokerOrderId := row.brokerKey
            dbStatus := row.status
            brokerStatus := status })
  | _ => .error .attributeError

/-- The order takes the status of its record, where it has one. -/
def adoptStatus (working : Database) (row : OrderRow) : Value → Except Failure Database
  | .none => .ok working
  | .dict entries =>
      match Value.get entries "status" with
      | some status => working.updateStatus row.id status
      | none => .error (.raised .keyError)
  | _ => .error (.raised .typeError)

/-- One turn of the loop of `run_once`, on the tables as the transaction sees them. -/
def reconcile (broker : Broker) (working : Database) (row : OrderRow) :
    Except Failure Database := do
  let brokerStatus ← (broker.getOrderStatus row.brokerKey).mapError .raised
  match ← (buildDiscrepancy row brokerStatus).mapError .raised with
  | none => return working
  | some discrepancy =>
      let updated ←
        adoptStatus (working.insertReconciliation row.id discrepancy) row brokerStatus
      return updated.insertAuditLog discrepancy

/-- `timedelta(minutes=2)`. -/
def grace : ℤ := 2 * 60 * 1000000

/-- `run_once` up to its commit. -/
def runOnce (broker : Broker) (now : ℤ) (db : Database) : Except Failure Database :=
  (db.selectOpen (now - grace)).foldlM (reconcile broker) db

/-- The committed tables after `run_once`. -/
def afterRun (broker : Broker) (now : ℤ) (db : Database) : Database :=
  match runOnce broker now db with
  | .ok committed => committed
  | .error _ => db

/-! ## What a run makes of an order -/

/-- An order beside its record. -/
inductive Verdict where
  | agrees
  | missing
  /-- The status of the record, and what the orders table keeps of it. -/
  | differs (recorded stored : String)
  /-- The record cannot be read, or holds no status that the orders table takes. -/
  | unreadable
deriving DecidableEq

def verdict (broker : Broker) (row : OrderRow) : Verdict :=
  match broker.getOrderStatus row.brokerKey with
  | .ok .none => .missing
  | .ok (.dict entries) =>
      match Value.get entries "status" with
      | some (.str status) =>
          if status = row.status then .agrees
          else
            match varchar 32 status with
            | some stored => .differs status stored
            | none => .unreadable
      | _ => .unreadable
  | _ => .unreadable

/-- The discrepancy that a record with this status makes. -/
def OrderRow.discrepancy (row : OrderRow) (brokerStatus : String) : Discrepancy where
  orderId := row.id
  brokerOrderId := row.brokerKey
  dbStatus := row.status
  brokerStatus := .str brokerStatus

/-- The tables after the turn of an order, where nothing fails. -/
def reconciled (broker : Broker) (working : Database) (row : OrderRow) : Database :=
  match verdict broker row with
  | .missing =>
      (working.insertReconciliation row.id (row.discrepancy "missing")).insertAuditLog
        (row.discrepancy "missing")
  | .differs recorded stored =>
      ((working.insertReconciliation row.id (row.discrepancy recorded)).setStatus row.id
        stored).insertAuditLog (row.discrepancy recorded)
  | _ => working

/-- The order after its turn. -/
def settled (broker : Broker) (row : OrderRow) : OrderRow :=
  match verdict broker row with
  | .differs _ stored => { row with status := stored }
  | _ => row

variable {broker : Broker} {row : OrderRow} {working db : Database}

@[simp] theorem settled_id : (settled broker row).id = row.id := by
  unfold settled
  split <;> rfl

/-- A turn fails where the order is unreadable, and nowhere else. -/
theorem reconcile_eq (readable : verdict broker row ≠ .unreadable) :
    reconcile broker working row = .ok (reconciled broker working row) := by
  unfold verdict at readable
  unfold reconcile reconciled verdict
  rcases read : broker.getOrderStatus row.brokerKey with error | status
  · simp [read] at readable
  simp only [read] at readable ⊢
  cases status with
  | none => rfl
  | dict entries =>
      rcases found : Value.get entries "status" with _ | status
      · simp [found] at readable
      cases status with
      | str text =>
          by_cases same : text = row.status
          · simp [Except.mapError, buildDiscrepancy, found, Value.isText, same, pure, Except.pure,
              bind, Except.bind]
          · rcases kept : varchar 32 text with _ | stored
            · simp [found, same, kept] at readable
            · simp [Except.mapError, buildDiscrepancy, found, Value.isText, same, pure,
                Except.pure, bind, Except.bind, adoptStatus, Database.updateStatus, kept,
                OrderRow.discrepancy]
      | _ => simp [found] at readable
  | _ => exact (readable rfl).elim

theorem reconcile_unreadable (unreadable : verdict broker row = .unreadable) :
    ∃ failure, reconcile broker working row = .error failure := by
  unfold verdict at unreadable
  unfold reconcile
  rcases read : broker.getOrderStatus row.brokerKey with error | status
  · exact ⟨.raised error, rfl⟩
  simp only [read] at unreadable ⊢
  cases status with
  | none => cases unreadable
  | dict entries =>
      rcases found : Value.get entries "status" with _ | status
      · exact ⟨.raised .keyError, by
          simp [Except.mapError, buildDiscrepancy, found, Value.isText, bind, Except.bind,
            adoptStatus]⟩
      cases status with
      | str text =>
          by_cases same : text = row.status
          · simp [found, same] at unreadable
          · rcases kept : varchar 32 text with _ | stored
            · exact ⟨.dataError, by
                simp [Except.mapError, buildDiscrepancy, found, Value.isText, same, bind,
                  Except.bind, adoptStatus, Database.updateStatus, kept]⟩
            · simp [found, same, kept] at unreadable
      | _ =>
          exact ⟨.dataError, by
            simp [Except.mapError, buildDiscrepancy, found, Value.isText, bind, Except.bind,
              adoptStatus, Database.updateStatus]⟩
  | _ => exact ⟨_, rfl⟩

/-! ## Runs -/

/-- Open for two minutes at a time: what a run selects. -/
def Due (now : ℤ) (row : OrderRow) : Prop :=
  (row.status = "pending" ∨ row.status = "partial") ∧ row.createdAt < now - grace

instance (now : ℤ) (row : OrderRow) : Decidable (Due now row) :=
  inferInstanceAs (Decidable (_ ∧ _))

theorem mem_selectOpen {now : ℤ} :
    row ∈ db.selectOpen (now - grace) ↔ row ∈ db.orders ∧ Due now row := by
  simp [Database.selectOpen, Due]

theorem foldlM_reconcile {rows : List OrderRow}
    (readable : ∀ row ∈ rows, verdict broker row ≠ .unreadable) :
    rows.foldlM (reconcile broker) working = .ok (rows.foldl (reconciled broker) working) := by
  induction rows generalizing working with
  | nil => rfl
  | cons row rest induction =>
      rw [List.foldlM_cons, reconcile_eq (readable row List.mem_cons_self)]
      exact induction fun other member => readable other (List.mem_cons_of_mem _ member)

theorem foldlM_reconcile_unreadable {rows : List OrderRow} (member : row ∈ rows)
    (unreadable : verdict broker row = .unreadable) :
    ∃ failure, rows.foldlM (reconcile broker) working = .error failure := by
  induction rows generalizing working with
  | nil => cases member
  | cons first rest induction =>
      rw [List.foldlM_cons]
      rcases turn : reconcile broker working first with failure | next
      · exact ⟨failure, rfl⟩
      rcases List.mem_cons.mp member with rfl | later
      · obtain ⟨failure, fails⟩ := @reconcile_unreadable broker row working unreadable
        rw [fails] at turn
        cases turn
      · exact induction later

theorem afterRun_unreadable {now : ℤ} (member : row ∈ db.orders) (due : Due now row)
    (unreadable : verdict broker row = .unreadable) : afterRun broker now db = db := by
  obtain ⟨failure, fails⟩ :=
    @foldlM_reconcile_unreadable broker row db _ (mem_selectOpen.mpr ⟨member, due⟩) unreadable
  rw [afterRun, runOnce, fails]

theorem afterRun_readable {now : ℤ}
    (readable : ∀ row ∈ db.orders, Due now row → verdict broker row ≠ .unreadable) :
    afterRun broker now db = (db.selectOpen (now - grace)).foldl (reconciled broker) db := by
  rw [afterRun, runOnce, foldlM_reconcile]
  intro row member
  have ⟨held, due⟩ := mem_selectOpen.mp member
  exact readable row held due

/-! ## What a run records -/

theorem length_foldl_reconciled {rows : List OrderRow}
    (readable : ∀ row ∈ rows, verdict broker row ≠ .unreadable) :
    (rows.foldl (reconciled broker) working).orderReconciliation.length =
      working.orderReconciliation.length +
        rows.countP fun row => verdict broker row ≠ .agrees := by
  induction rows generalizing working with
  | nil => rfl
  | cons row rest induction =>
      have now := readable row List.mem_cons_self
      rw [List.foldl_cons,
        induction fun other member => readable other (List.mem_cons_of_mem _ member),
        List.countP_cons, reconciled]
      rcases seen : verdict broker row with _ | _ | ⟨recorded, stored⟩ | _
      · simp
      · simp [Database.insertReconciliation, Database.insertAuditLog]
        omega
      · simp [Database.insertReconciliation, Database.insertAuditLog, Database.setStatus]
        omega
      · exact (now seen).elim

theorem foldl_reconciled_agrees {rows : List OrderRow}
    (agree : ∀ row ∈ rows, verdict broker row = .agrees) :
    rows.foldl (reconciled broker) working = working := by
  induction rows with
  | nil => rfl
  | cons row rest induction =>
      rw [List.foldl_cons, reconciled, agree row List.mem_cons_self]
      exact induction fun other member => agree other (List.mem_cons_of_mem _ member)

/-- A run changes nothing exactly when it fails or finds agreement everywhere. -/
theorem afterRun_eq_self_iff {now : ℤ} :
    afterRun broker now db = db ↔
      (∃ row ∈ db.orders, Due now row ∧ verdict broker row = .unreadable) ∨
        ∀ row ∈ db.orders, Due now row → verdict broker row = .agrees := by
  by_cases unreadable : ∃ row ∈ db.orders, Due now row ∧ verdict broker row = .unreadable
  · obtain ⟨row, member, due, unread⟩ := unreadable
    exact iff_of_true (afterRun_unreadable member due unread) (.inl ⟨row, member, due, unread⟩)
  have readable : ∀ row ∈ db.orders, Due now row → verdict broker row ≠ .unreadable :=
    fun row member due unread => unreadable ⟨row, member, due, unread⟩
  rw [or_iff_right unreadable, afterRun_readable readable]
  constructor
  · intro same row member due
    have count := congrArg (fun after => after.orderReconciliation.length) same
    have selected : ∀ row ∈ db.selectOpen (now - grace), verdict broker row ≠ .unreadable :=
      fun row member => readable row (mem_selectOpen.mp member).1 (mem_selectOpen.mp member).2
    simp only [length_foldl_reconciled selected] at count
    have none := List.countP_eq_zero.mp (Nat.add_eq_left.mp count) row
      (mem_selectOpen.mpr ⟨member, due⟩)
    simpa using none
  · intro agree
    apply foldl_reconciled_agrees
    intro row member
    exact agree row (mem_selectOpen.mp member).1 (mem_selectOpen.mp member).2

/-! ## What a run makes of the orders -/

/-- An order after the turn of another one. -/
def adopted (broker : Broker) (order row : OrderRow) : OrderRow :=
  match verdict broker row with
  | .differs _ stored => order.setStatus row.id stored
  | _ => order

theorem adopted_self : adopted broker row row = settled broker row := by
  unfold adopted settled OrderRow.setStatus
  split <;> simp

theorem adopted_of_ne {order : OrderRow} (different : order.id ≠ row.id) :
    adopted broker order row = order := by
  unfold adopted OrderRow.setStatus
  split <;> simp [different]

theorem orders_foldl_reconciled (rows : List OrderRow) :
    (rows.foldl (reconciled broker) working).orders =
      working.orders.map fun order => rows.foldl (adopted broker) order := by
  induction rows generalizing working with
  | nil => simp
  | cons row rest induction =>
      have turn : (reconciled broker working row).orders =
          working.orders.map fun order => adopted broker order row := by
        unfold reconciled adopted
        rcases verdict broker row with _ | _ | ⟨recorded, stored⟩ | _
        · exact (List.map_id' _).symm
        · exact (List.map_id' _).symm
        · rfl
        · exact (List.map_id' _).symm
      rw [List.foldl_cons, induction, turn, List.map_map]
      rfl

theorem foldl_adopted_other {order : OrderRow} {rows : List OrderRow}
    (absent : order.id ∉ rows.map OrderRow.id) : rows.foldl (adopted broker) order = order := by
  induction rows with
  | nil => rfl
  | cons row rest induction =>
      rw [List.map_cons, List.mem_cons, not_or] at absent
      rw [List.foldl_cons, adopted_of_ne absent.1]
      exact induction absent.2

/-- No two orders share an id, so an order is changed in its own turn only. -/
theorem foldl_adopted {order : OrderRow} {rows : List OrderRow}
    (distinct : (rows.map OrderRow.id).Nodup)
    (same : ∀ row ∈ rows, order.id = row.id → order = row) :
    rows.foldl (adopted broker) order = if order ∈ rows then settled broker order else order := by
  induction rows with
  | nil => rfl
  | cons row rest induction =>
      rw [List.map_cons, List.nodup_cons] at distinct
      have later := induction distinct.2 fun other member =>
        same other (List.mem_cons_of_mem _ member)
      by_cases own : order.id = row.id
      · obtain rfl := same row List.mem_cons_self own
        rw [List.foldl_cons, adopted_self, if_pos List.mem_cons_self]
        exact foldl_adopted_other (by rw [settled_id]; exact distinct.1)
      · have other : order ≠ row := fun equal => own (congrArg OrderRow.id equal)
        rw [List.foldl_cons, adopted_of_ne own, later]
        simp [other]

theorem Database.eq_of_id {first second : OrderRow} (left : first ∈ db.orders)
    (right : second ∈ db.orders) (same : first.id = second.id) : first = second :=
  List.inj_on_of_nodup_map db.distinct left right same

theorem orders_afterRun {now : ℤ}
    (readable : ∀ row ∈ db.orders, Due now row → verdict broker row ≠ .unreadable) :
    (afterRun broker now db).orders =
      db.orders.map fun row => if Due now row then settled broker row else row := by
  rw [afterRun_readable readable, orders_foldl_reconciled]
  apply List.map_congr_left
  intro row member
  have distinct : ((db.selectOpen (now - grace)).map OrderRow.id).Nodup :=
    db.distinct.sublist (List.filter_sublist.map _)
  have same : ∀ other ∈ db.selectOpen (now - grace), row.id = other.id → row = other :=
    fun other selected => Database.eq_of_id member (mem_selectOpen.mp selected).1
  rw [foldl_adopted distinct same]
  simp only [mem_selectOpen, member, true_and]

/-! ## The second run -/

theorem varchar_eq {width : ℕ} {text stored : String} (kept : varchar width text = some stored)
    (short : stored.length < width) : text = stored := by
  unfold varchar at kept
  split_ifs at kept with _ fits
  · exact Option.some.inj kept
  · have cut := congrArg String.length (Option.some.inj kept)
    simp only [String.length_ofList, List.length_take, String.length_toList] at cut
    omega

/-- An order that is open again after its turn agrees with its record. -/
theorem verdict_settled {now : ℤ} (readable : verdict broker row ≠ .unreadable)
    (held : verdict broker row ≠ .missing) (due : Due now (settled broker row)) :
    verdict broker (settled broker row) = .agrees := by
  rcases seen : verdict broker row with _ | _ | ⟨recorded, stored⟩ | _
  · simp only [settled, seen]
  · exact (held seen).elim
  · have short : stored.length < 32 := by
      simp only [settled, seen, Due] at due
      rcases due.1 with rfl | rfl <;> decide
    simp only [settled, seen]
    unfold verdict at seen ⊢
    simp only [OrderRow.brokerKey] at seen ⊢
    rcases read : broker.getOrderStatus (row.brokerOrderId.getD "None") with error | status
    · simp [read] at seen
    simp only [read] at seen ⊢
    cases status with
    | dict entries =>
        rcases found : Value.get entries "status" with _ | status
        · simp [found] at seen
        cases status with
        | str text =>
            simp only [found] at seen ⊢
            split_ifs at seen with same
            rcases kept : varchar 32 text with _ | column
            · simp [kept] at seen
            · simp only [kept, Verdict.differs.injEq] at seen
              obtain ⟨-, rfl⟩ := seen
              exact if_pos (varchar_eq kept short)
        | _ => simp [found] at seen
    | _ => simp at seen
  · exact (readable seen).elim

theorem settled_missing (absent : verdict broker row = .missing) : settled broker row = row := by
  simp only [settled, absent]

theorem settled_readable {now : ℤ} (readable : verdict broker row ≠ .unreadable)
    (due : Due now (settled broker row)) : verdict broker (settled broker row) ≠ .unreadable := by
  by_cases absent : verdict broker row = .missing
  · rw [settled_missing absent]
    exact readable
  · rw [verdict_settled readable absent due]
    decide

/-- The second run finds nothing to record: it fails as a whole, or every order it selects has a
record, which an order agrees with that the first run left to its two minutes. -/
def NothingLeft (broker : Broker) (now later : ℤ) (db : Database) : Prop :=
  (∃ row ∈ db.orders, Due later row ∧ verdict broker row = .unreadable) ∨
    ∀ row ∈ db.orders, Due later row →
      verdict broker row ≠ .missing ∧ (Due now row ∨ verdict broker row = .agrees)

/-- A second run over the same orders and records changes nothing, which is exactly where it finds
nothing to record. -/
theorem afterRun_twice_iff (broker : Broker) (db : Database) (now : ℤ) (elapsed : ℕ) :
    afterRun broker (now + elapsed) (afterRun broker now db) = afterRun broker now db ↔
      NothingLeft broker now (now + elapsed) db := by
  have earlier : ∀ {row : OrderRow}, Due now row → Due (now + elapsed) row :=
    fun due => ⟨due.1, by have := due.2; omega⟩
  rw [afterRun_eq_self_iff, NothingLeft]
  by_cases unreadable : ∃ row ∈ db.orders, Due now row ∧ verdict broker row = .unreadable
  · -- both runs fail at the same order
    obtain ⟨row, member, due, unread⟩ := unreadable
    rw [afterRun_unreadable member due unread]
    exact iff_of_true (.inl ⟨row, member, earlier due, unread⟩)
      (.inl ⟨row, member, earlier due, unread⟩)
  have readable : ∀ row ∈ db.orders, Due now row → verdict broker row ≠ .unreadable :=
    fun row member due unread => unreadable ⟨row, member, due, unread⟩
  rw [orders_afterRun readable]
  constructor
  · rintro (⟨changed, member, due, unread⟩ | agree)
    · obtain ⟨row, held, rfl⟩ := List.mem_map.mp member
      by_cases selected : Due now row
      · rw [if_pos selected] at due unread
        exact (settled_readable (readable row held selected) due unread).elim
      · rw [if_neg selected] at due unread
        exact .inl ⟨row, held, due, unread⟩
    · right
      intro row held due
      have second := agree _ (List.mem_map_of_mem held)
      by_cases selected : Due now row
      · refine ⟨fun absent => ?_, .inl selected⟩
        rw [if_pos selected, settled_missing absent] at second
        rw [absent] at second
        cases second due
      · rw [if_neg selected] at second
        exact ⟨by simp [second due], .inr (second due)⟩
  · rintro (⟨row, held, due, unread⟩ | left)
    · have selected : ¬Due now row := fun selected => readable row held selected unread
      refine .inl ⟨row, List.mem_map.mpr ⟨row, held, if_neg selected⟩, due, unread⟩
    · right
      intro changed member due
      obtain ⟨row, held, rfl⟩ := List.mem_map.mp member
      by_cases selected : Due now row
      · rw [if_pos selected] at due ⊢
        exact verdict_settled (readable row held selected)
          (left row held (earlier selected)).1 due
      · rw [if_neg selected] at due ⊢
        exact (left row held due).2.resolve_left selected

/-- An order that never reached the broker. -/
def neverPlaced : Database where
  orders := [{ id := "o1", brokerOrderId := none, status := "pending", createdAt := 0 }]
  distinct := by decide
  orderReconciliation := []
  auditLog := []

/-- A broker without records. -/
def emptyBroker : Broker where
  runtime := Reference.runtime
  depth := 16
  redis := fun _ => none

/-- An order without a record stays open and is recorded by every run, each time as resolved. -/
theorem missing_record_again :
    ((afterRun emptyBroker 300000000 neverPlaced).orderReconciliation.map
        ReconciliationRow.resolved = [true] ∧
      (afterRun emptyBroker 600000000
        (afterRun emptyBroker 300000000 neverPlaced)).orderReconciliation.map
          ReconciliationRow.resolved = [true, true]) ∧
    ¬∀ (broker : Broker) (db : Database) (now : ℤ) (elapsed : ℕ),
      afterRun broker (now + elapsed) (afterRun broker now db) = afterRun broker now db := by
  have runs : (afterRun emptyBroker 300000000 neverPlaced).orderReconciliation.map
        ReconciliationRow.resolved = [true] ∧
      (afterRun emptyBroker 600000000
        (afterRun emptyBroker 300000000 neverPlaced)).orderReconciliation.map
          ReconciliationRow.resolved = [true, true] := by decide +kernel
  refine ⟨runs, fun always => ?_⟩
  have same := always emptyBroker neverPlaced 300000000 300000000
  have second := runs.2
  rw [show (600000000 : ℤ) = 300000000 + (300000000 : ℕ) from rfl, same, runs.1] at second
  cases second

end TradingControl.OrderReconciler
