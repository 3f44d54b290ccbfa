import TradingControl.Execution.LongOnly

/-!
# Orders placed side by side

The engine locks one symbol at a time, and cash is one key for all of them.  An order reads the cash
and writes back what its fill leaves of it; an order on another symbol that reads in between writes
back a cash that misses the first fill.  Orders that keep reading and writing apart lose nothing.
-/

namespace TradingControl

open Effects Python Engine

variable {ι : Type} [DecidableEq ι]

/-! ## Reading and writing cash -/

def cashChange (side : String) (qty fillPrice : ℚ) : ℚ :=
  if isBuy (lower side) then -(qty * fillPrice) else qty * fillPrice

theorem settle_eq (cash : ℚ) (side : String) (qty fillPrice : ℚ) :
    settle cash side qty fillPrice = cash + cashChange side qty fillPrice := by
  rw [settle, cashChange, direction]
  split
  · rw [if_pos one_pos, sub_eq_add_neg]
  · rw [if_neg (by norm_num)]

def readsCash : Option EngineOp → Bool
  | some (.redis (.get .paperCash)) => true
  | _ => false

/-- The order has read the cash and is about to write it back. -/
def writesCash : Option EngineOp → Bool
  | some (.redis (.set .paperCash _)) => true
  | _ => false

/-- Nobody reads the cash while another order has read it and not yet written it back. -/
def ReadsApart : Pool.Condition engineSignature Choice World ι := fun _ pending i _ =>
  readsCash (pending i) = true → ∀ j, j ≠ i → writesCash (pending j) = false

instance [Fintype ι] (world : World) (pending : ι → Option EngineOp) (i : ι) (choice : Choice) :
    Decidable (ReadsApart world pending i choice) :=
  inferInstanceAs (Decidable (_ → ∀ _, _))

/-- How far an order has come with the cash. -/
inductive CashPhase where
  /-- It has not read the cash, or has failed to write it. -/
  | idle
  /-- It has read the cash and is about to write it back. -/
  | holding (cash : ℚ)
  /-- Its fill has moved the cash. -/
  | settled (change : ℚ)

/-- Cash that the order has moved. -/
def CashPhase.change : CashPhase → ℚ
  | .settled change => change
  | _ => 0

@[simp] theorem change_idle : CashPhase.idle.change = 0 := rfl

@[simp] theorem change_holding (cash : ℚ) : (CashPhase.holding cash).change = 0 := rfl

@[simp] theorem change_settled (change : ℚ) : (CashPhase.settled change).change = change := rfl

/-- The cash is the initial one and what the orders have moved, and at most one order has read it
without writing it back. -/
def cashProtocol (ι : Type) [Fintype ι] (initialCash : ℚ) :
    Protocol engineSignature World ι CashPhase where
  invariant world phases :=
    world.book.cash = initialCash + ∑ i, (phases i).change ∧
      ∀ i cash, phases i = .holding cash →
        world.book.cash = cash ∧ ∀ j held, phases j = .holding held → j = i
  matches_ phase op :=
    match phase with
    | .holding _ => writesCash op = true
    | _ => True

variable [Fintype ι]

/-- Moving one order on moves the sum by what that order adds. -/
theorem sum_change_update (phases : ι → CashPhase) (i : ι) (phase : CashPhase) :
    ∑ j, (Function.update phases i phase j).change =
      ∑ j, (phases j).change + (phase.change - (phases i).change) := by
  have moved := Protocol.sum_update_add CashPhase.change phases i phase
  linarith

/-! ## One order -/

/-- Operations that leave the cash alone. -/
def EngineOp.KeepsCash (op : EngineOp) : Prop :=
  ∀ choice world, (engineHandler op choice world).2.book.cash = world.book.cash

theorem keepsCash_redis {command : KeyValue.Command Key.Value} (other : command.key ≠ .paperCash) :
    (EngineOp.redis command).KeepsCash := by
  intro choice world
  by_cases fails : choice.redisFails = true
  · simp [engineHandler, fails]
  · simp only [engineHandler, fails, World.book]
    exact congrArg (Option.getD · defaultPaperCash) (command.apply_other world.redis other.symm)

theorem keepsCash_of_quiet {op : EngineOp} (quiet : op.Quiet) : op.KeepsCash :=
  fun choice world => congrArg Book.cash (steady_of_quiet quiet choice world).book

variable {initialCash : ℚ} {i : ι}

omit [DecidableEq ι] in
/-- Operations that leave the cash alone are stable for orders that do not hold it. -/
theorem stable_of_keepsCash {phase : CashPhase} (free : ∀ cash, phase ≠ .holding cash)
    {op : EngineOp} (keeps : op.KeepsCash) :
    (cashProtocol ι initialCash).Stable engineHandler i phase op where
  matched := by
    cases phase with
    | idle => trivial
    | holding cash => exact absurd rfl (free cash)
    | settled change => trivial
  kept world phases choice inv _ := by
    obtain ⟨total, holding⟩ := inv
    exact ⟨(keeps choice world).trans total, fun j cash phase =>
      ⟨(keeps choice world).trans (holding j cash phase).1, (holding j cash phase).2⟩⟩

def CashOutcome (order : Submission) : Except Failure BrokerOrder → CashPhase → Prop
  | .ok receipt, phase => phase = .settled (cashChange order.side order.qty receipt.fillPrice)
  | .error _, phase => ∀ cash, phase ≠ .holding cash

theorem wp_readCash {post : Except Failure (Option ℚ) → CashPhase → Prop}
    (failed : post (.error .redisError) .idle)
    (read : ∀ raw : Option ℚ, post (.ok raw) (.holding (raw.getD defaultPaperCash))) :
    (redisGet .paperCash).wp
      ((cashProtocol ι initialCash).transformer engineHandler ReadsApart i) post .idle := by
  rw [redisGet, Program.wp_perform]
  refine ⟨trivial, fun world phases pending choice inv own isPending others apart => ?_⟩
  by_cases fails : choice.redisFails = true
  · refine ⟨.idle, ?_, by simpa [engineHandler, fails] using failed⟩
    rw [← own, Function.update_eq_self]
    simpa [engineHandler, fails] using inv
  have answered : engineHandler (.redis (.get .paperCash)) choice world =
      (.ok (world.redis .paperCash), world) := by
    simp only [engineHandler, fails]
    rfl
  rw [answered]
  refine ⟨.holding world.book.cash, ?_, read _⟩
  -- whoever holds the cash is about to write it
  have nobody : ∀ j held, j ≠ i → phases j ≠ .holding held := by
    intro j held different holds
    have matched := others j
    rw [holds] at matched
    have writes : writesCash (pending j) = true := matched
    have reads : readsCash (pending i) = true := by rw [isPending]; rfl
    simp [apart reads j different] at writes
  obtain ⟨total, -⟩ := inv
  refine ⟨by simp [sum_change_update, own, total], fun j cash holds => ?_⟩
  by_cases same : j = i
  · subst same
    rw [Function.update_self] at holds
    refine ⟨CashPhase.holding.inj holds, fun other held holdsToo => ?_⟩
    by_contra different
    rw [Function.update_of_ne different] at holdsToo
    exact nobody other held different holdsToo
  · rw [Function.update_of_ne same] at holds
    exact absurd holds (nobody j cash same)

theorem wp_writeCash {cash change : ℚ} {post : Except Failure Unit → CashPhase → Prop}
    (failed : post (.error .redisError) .idle) (written : post (.ok ()) (.settled change)) :
    (redisSet .paperCash (cash + change)).wp
      ((cashProtocol ι initialCash).transformer engineHandler ReadsApart i) post
      (.holding cash) := by
  rw [redisSet, Program.wp_perform]
  refine ⟨rfl, fun world phases pending choice inv own _ _ _ => ?_⟩
  obtain ⟨total, holding⟩ := inv
  obtain ⟨current, alone⟩ := holding i cash own
  have nobody : ∀ j held phase, phase ≠ .holding held →
      Function.update phases i phase j ≠ .holding held := by
    intro j held phase free
    by_cases same : j = i
    · subst same
      simpa using free
    · rw [Function.update_of_ne same]
      exact fun holds => same (alone j held holds)
  by_cases fails : choice.redisFails = true
  · refine ⟨.idle, ⟨?_, fun j held holds => absurd holds (nobody j held _ (by simp))⟩,
      by simpa [engineHandler, fails] using failed⟩
    simpa [sum_change_update, own, engineHandler, fails] using total
  · refine ⟨.settled change, ⟨?_, fun j held holds => absurd holds (nobody j held _ (by simp))⟩,
      by simpa [engineHandler, fails] using written⟩
    have effect : (engineHandler (.redis (.set .paperCash (cash + change))) choice world).2 =
        world.write .paperCash (cash + change) := by
      simp [engineHandler, fails, World.write]
    rw [effect, World.book_writeCash, sum_change_update, own, change_settled, change_holding]
    linarith

theorem wp_placeOrder_apart (round8 : ℚ → ℚ) (order : Submission) :
    (PaperBroker.placeOrder round8 order.symbol order.side order.qty order.price).wp
      ((cashProtocol ι initialCash).transformer engineHandler ReadsApart i) (CashOutcome order)
      .idle := by
  have idle : ∀ {α : Type} {program : Engine α}, program.Calls EngineOp.KeepsCash →
      program.Calls ((cashProtocol ι initialCash).Stable engineHandler i .idle) :=
    fun calls => calls.mono fun _ keeps => stable_of_keepsCash (by simp) keeps
  have settled : ∀ {α : Type} {change : ℚ} {program : Engine α}, program.Calls EngineOp.KeepsCash →
      program.Calls ((cashProtocol ι initialCash).Stable engineHandler i (.settled change)) :=
    fun calls => calls.mono fun _ keeps => stable_of_keepsCash (by simp) keeps
  have quiet : ∀ {α : Type} {program : Engine α}, program.Quiet →
      program.Calls EngineOp.KeepsCash :=
    fun quiet => quiet.mono fun _ quiet => keepsCash_of_quiet quiet
  rw [PaperBroker.placeOrder]
  refine Protocol.wp_bind_stable (idle (Program.calls_perform fun _ _ => rfl)) (by simp [CashOutcome])
    fun _ => ?_
  refine Protocol.wp_bind_stable (idle (quiet (Program.calls_perform rfl))) (by simp [CashOutcome])
    fun _ => ?_
  refine Protocol.wp_bind_stable (idle (Program.calls_perform fun _ _ => rfl)) (by simp [CashOutcome])
    fun slippage => ?_
  dsimp only
  generalize slippedPrice round8 order.side order.price slippage = fillPrice
  -- the cash is initialised, read and written back
  rw [PaperBroker.getCash]
  rw [Program.bind_eq_bind, Program.bind_eq_bind, Program.bind_assoc]
  refine Protocol.wp_bind_stable (idle (quiet (Program.calls_perform rfl))) (by simp [CashOutcome])
    fun _ => ?_
  rw [Program.bind_eq_bind, Program.bind_assoc, Program.wp_bind]
  apply wp_readCash
  · simp [CashOutcome]
  intro raw
  rw [Program.andThen_ok, Program.pure_eq_ret, Program.ret_bind]
  generalize raw.getD defaultPaperCash = cash
  rw [Program.bind_eq_bind, Program.wp_bind, settle_eq]
  apply wp_writeCash
  · simp [CashOutcome]
  rw [Program.andThen_ok]
  -- nothing that follows touches it
  refine Protocol.wp_bind_stable (settled (quiet (quiet_getPosition _))) (by simp [CashOutcome])
    fun current => ?_
  refine Protocol.wp_bind_stable (settled (quiet quiet_utcNow)) (by simp [CashOutcome])
    fun now => ?_
  refine Protocol.wp_bind_stable (settled (Program.calls_perform (keepsCash_redis ?_)))
    (by simp [CashOutcome]) fun _ => ?_
  · simp [KeyValue.Command.key]
  refine Protocol.wp_bind_stable (settled (quiet quiet_uuid4)) (by simp [CashOutcome])
    fun brokerOrderId => ?_
  refine Protocol.wp_bind_stable (settled (Program.calls_perform (keepsCash_redis ?_)))
    (by simp [CashOutcome]) fun _ => ?_
  · simp [KeyValue.Command.key]
  exact rfl

/-! ## Any number of orders -/

/-- Orders that are about to be placed side by side. -/
def ordersPool (round8 : ℚ → ℚ) (orders : ι → Submission) (world : World) :
    Pool engineSignature Failure BrokerOrder World ι where
  world := world
  program i :=
    PaperBroker.placeOrder round8 (orders i).symbol (orders i).side (orders i).qty (orders i).price

/-- Every schedule that keeps reading and writing apart keeps the protocol. -/
theorem holds_run (round8 : ℚ → ℚ) (orders : ι → Submission) (world : World)
    {schedule : List (ι × Choice)}
    (apart : (ordersPool round8 orders world).Obeys engineHandler ReadsApart schedule) :
    ∃ phases, (cashProtocol ι world.book.cash).Holds engineHandler ReadsApart
      (fun i => CashOutcome (orders i)) ((ordersPool round8 orders world).run engineHandler schedule)
      phases := by
  have start : (cashProtocol ι world.book.cash).Holds engineHandler ReadsApart
      (fun i => CashOutcome (orders i)) (ordersPool round8 orders world) fun _ => .idle :=
    ⟨⟨by simp [ordersPool], by simp⟩, fun i => wp_placeOrder_apart round8 (orders i)⟩
  refine start.run (fun i outcome phase ended => ?_) schedule apart
  cases phase with
  | idle => trivial
  | settled change => trivial
  | holding cash =>
      cases outcome with
      | ok receipt => cases ended
      | error error => exact absurd rfl (ended cash)

/-- Orders that keep reading and writing apart and all complete move the cash by all their fills,
whatever symbols they are in. -/
theorem cash_conserved (round8 : ℚ → ℚ) (orders : ι → Submission) (world : World)
    {schedule : List (ι × Choice)} {receipts : ι → BrokerOrder}
    (apart : (ordersPool round8 orders world).Obeys engineHandler ReadsApart schedule)
    (completed : ∀ i, (((ordersPool round8 orders world).run engineHandler schedule).program
      i).result = some (receipts i)) :
    ((ordersPool round8 orders world).run engineHandler schedule).world.book.cash =
      world.book.cash
        - ∑ i with isBuy (lower (orders i).side) = true, (orders i).qty * (receipts i).fillPrice
        + ∑ i with ¬isBuy (lower (orders i).side) = true, (orders i).qty * (receipts i).fillPrice := by
  obtain ⟨phases, holds⟩ := holds_run round8 orders world apart
  have moved : ∀ i, (phases i).change =
      cashChange (orders i).side (orders i).qty (receipts i).fillPrice := by
    intro i
    have settled : CashOutcome (orders i) (.ok (receipts i)) (phases i) :=
      holds.outcome (Program.eq_ret_of_result (completed i))
    rw [show phases i = _ from settled, change_settled]
  have total := holds.invariant.1
  simp only [moved, cashChange, Finset.sum_ite, Finset.sum_neg_distrib] at total
  rw [total]
  ring

/-- A buy of one share in each of two symbols. -/
def twoBuys (first : Bool) : Submission where
  symbol := if first then "BTC/USD" else "ETH/USD"
  side := "buy"
  qty := 1
  price := 100

/-- A schedule entry in which nothing fails. -/
def calmly (first : Bool) : Bool × Choice := (first, {})

/-- Each order takes its steps after the other has finished. -/
def oneAfterTheOther : List (Bool × Choice) :=
  List.replicate 12 (calmly true) ++ List.replicate 12 (calmly false)

/-- Both orders read the cash before either writes it back. -/
def sideBySide : List (Bool × Choice) :=
  List.replicate 5 (calmly true) ++ List.replicate 12 (calmly false) ++
    List.replicate 7 (calmly true)

def twoReceipts (first : Bool) : BrokerOrder where
  brokerOrderId := "uuid"
  symbol := if first then "BTC/USD" else "ETH/USD"
  side := "buy"
  filledQty := 1
  fillPrice := 10001 / 100
  status := "filled"

/-- One after the other, two buys take two payments. -/
theorem cash_conserved_twoBuys :
    ((ordersPool id twoBuys freshWorld).run engineHandler oneAfterTheOther).world.book.cash =
      freshWorld.book.cash
        - ∑ i with isBuy (lower (twoBuys i).side) = true, (twoBuys i).qty * (twoReceipts i).fillPrice
        + ∑ i with ¬isBuy (lower (twoBuys i).side) = true,
            (twoBuys i).qty * (twoReceipts i).fillPrice := by
  refine cash_conserved id twoBuys freshWorld ?_ ?_
  · decide +kernel
  · decide +kernel

/-- Side by side, one of the two payments is lost. -/
theorem payment_lost :
    (∀ i, (((ordersPool id twoBuys freshWorld).run engineHandler sideBySide).program i).result =
        some (twoReceipts i)) ∧
      ((ordersPool id twoBuys freshWorld).run engineHandler sideBySide).world.book.cash ≠
        freshWorld.book.cash
          - ∑ i with isBuy (lower (twoBuys i).side) = true,
              (twoBuys i).qty * (twoReceipts i).fillPrice
          + ∑ i with ¬isBuy (lower (twoBuys i).side) = true,
              (twoBuys i).qty * (twoReceipts i).fillPrice := by
  refine ⟨?_, ?_⟩
  all_goals decide +kernel

end TradingControl
