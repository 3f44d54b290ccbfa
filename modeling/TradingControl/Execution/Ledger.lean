import Mathlib.Tactic.FieldSimp
import TradingControl.Execution.LongOnly

/-!
# The ledger identity

The broker moves cash and averages entry prices, while the PnL of a fill is computed elsewhere from
the position before it.  Over exact arithmetic the two agree: cash and the holdings at cost are
worth the initial cash and the PnL realized so far.
-/

namespace TradingControl

open Effects Python

/-! ## Holdings at cost -/

/-- Quantity at the average entry price. -/
def Position.cost (position : Position) : ℚ := position.qty * position.entryPrice

/-- Cash and the holdings of some symbols at cost. -/
def Book.worth (book : Book) (symbols : Finset String) : ℚ :=
  book.cash + ∑ symbol ∈ symbols, (book.position symbol).cost

/-- Nothing is held, or a long position above the dust limit at a positive cost. -/
def Position.Held (position : Position) : Prop :=
  position.qty = 0 ∨ position.side = "long" ∧ dust ≤ position.qty ∧ 0 < position.entryPrice

theorem dust_pos : 0 < dust := by norm_num [dust]

/-- A fill that opens or adds to a holding, as the broker records it. -/
theorem Position.fill_add {prior : Position} (held : prior.Held) {side : String}
    (up : direction side = 1) {qty fillPrice : ℚ} (positive : 0 < qty) (priced : 0 < fillPrice)
    (whole : dust ≤ prior.qty + qty) (now : String) :
    (prior.fill side qty fillPrice now).Held ∧
      (prior.fill side qty fillPrice now).cost = prior.cost + qty * fillPrice := by
  have isDust := dust_pos
  have sum : 0 < prior.qty + qty := isDust.trans_le whole
  rw [Position.fill]
  simp only [up, mul_one, abs_of_pos sum, not_lt.mpr whole, sum, if_true, if_false]
  rcases held with none_ | ⟨-, above, entry⟩
  · rw [none_, zero_add] at whole ⊢
    rw [if_pos (Or.inl (by simpa using isDust))]
    exact ⟨Or.inr ⟨rfl, whole, priced⟩, by simp [Position.cost, none_]⟩
  · have long : 0 < prior.qty := isDust.trans_le above
    rw [if_neg (by simp [abs_of_pos long, above, entry]), if_pos (by simp [long]), abs_of_pos long]
    have average : 0 < (prior.entryPrice * prior.qty + fillPrice * qty) / (prior.qty + qty) := by
      positivity
    refine ⟨Or.inr ⟨rfl, whole, average⟩, ?_⟩
    simp only [Position.cost]
    field_simp

/-- A fill that reduces or closes a holding, as the broker records it. -/
theorem Position.fill_reduce {prior : Position} (above : dust ≤ prior.qty)
    (entry : 0 < prior.entryPrice) {side : String} (down : direction side = -1)
    {qty : ℚ} (whole : prior.qty - qty = 0 ∨ dust ≤ prior.qty - qty) (fillPrice : ℚ)
    (now : String) :
    (prior.fill side qty fillPrice now).Held ∧
      (prior.fill side qty fillPrice now).cost = prior.cost - qty * prior.entryPrice := by
  have isDust := dust_pos
  have long : 0 < prior.qty := isDust.trans_le above
  rw [Position.fill]
  simp only [down, mul_neg_one, ← sub_eq_add_neg]
  rcases whole with closed | open_
  · rw [closed]
    simp only [abs_zero, isDust, if_true]
    refine ⟨Or.inl rfl, ?_⟩
    simp only [Position.cost]
    rw [sub_eq_zero.mp closed]
    ring
  · have left : 0 < prior.qty - qty := isDust.trans_le open_
    rw [if_neg (by simpa [abs_of_pos left] using open_),
      if_neg (by simp [abs_of_pos long, above, entry]), if_neg (by simp [long]),
      if_neg (by simp [long, left]), if_pos left]
    refine ⟨Or.inr ⟨rfl, open_, entry⟩, ?_⟩
    simp only [Position.cost]
    ring

/-! ## Realized PnL -/

theorem Position.priorSide_long {prior : Position} (side : prior.side = "long") :
    prior.priorSide = "long" := by
  rw [Position.priorSide, side]
  decide

/-- Opening and adding realize nothing. -/
theorem computeRealizedPnl_buy {prior : Position} (held : prior.Held) {side : String}
    (buy : isBuy side = true) (qty fillPrice : ℚ) :
    computeRealizedPnl id prior side qty fillPrice = 0 := by
  have notSell : isSell side = false := by
    rw [← Bool.not_eq_true]
    intro sell
    simp [not_isBuy_of_isSell sell] at buy
  rw [computeRealizedPnl]
  rw [if_neg (by simp [notSell])]
  rcases held with none_ | ⟨long, -, -⟩
  · rw [if_neg (by simp [none_])]
  · rw [if_neg (by simp [Position.priorSide_long long])]

/-- A close realizes the distance between fill price and entry price on what it closes. -/
theorem computeRealizedPnl_sell {prior : Position} (long : prior.side = "long")
    (positive : 0 < prior.qty) (entry : 0 < prior.entryPrice) {side : String}
    (sell : isSell side = true) {qty : ℚ} (within : qty ≤ prior.qty) (fillPrice : ℚ) :
    computeRealizedPnl id prior side qty fillPrice = (fillPrice - prior.entryPrice) * qty := by
  rw [computeRealizedPnl]
  rw [if_pos ⟨Position.priorSide_long long, sell, positive⟩, Position.entryOr, if_neg entry.ne',
    min_eq_left within]
  rfl

/-! ## One fill -/

/-- The books balance: every holding is recorded at cost, and worth changes by realized PnL only. -/
structure Book.Balanced (symbols : Finset String) (initialCash realizedPnl : ℚ) (book : Book) :
    Prop where
  held : ∀ symbol, (book.position symbol).Held
  worth : book.worth symbols = initialCash + realizedPnl

/-- Worth after an order, in terms of the position it was made in. -/
theorem Book.worth_fill (book : Book) {symbols : Finset String} {symbol : String}
    (traded : symbol ∈ symbols) (side : String) (qty fillPrice : ℚ) (now : String) :
    (book.fill symbol side qty fillPrice now).worth symbols =
      book.worth symbols + (settle book.cash side qty fillPrice - book.cash) +
        (((book.position symbol).fill side qty fillPrice now).cost -
          (book.position symbol).cost) := by
  have moved : ∑ other ∈ symbols, ((book.fill symbol side qty fillPrice now).position other).cost =
      ((book.position symbol).fill side qty fillPrice now).cost +
        ∑ other ∈ symbols.erase symbol, (book.position other).cost := by
    rw [← Finset.add_sum_erase symbols _ traded, Book.fill_position_self]
    congr 1
    refine Finset.sum_congr rfl fun other member => ?_
    rw [Book.fill_position_other book (Finset.ne_of_mem_erase member)]
  have before := Finset.add_sum_erase symbols (fun other => (book.position other).cost) traded
  rw [Book.worth, Book.worth, moved, Book.fill_cash]
  linarith

theorem Book.Balanced.fill {settings : Settings} {symbols : Finset String}
    {initialCash realizedPnl : ℚ} {book : Book}
    (balanced : book.Balanced symbols initialCash realizedPnl) {symbol side : String}
    {sized qty fillPrice : ℚ} (traded : symbol ∈ symbols)
    (named : isBuy side = true ∨ isSell side = true) (priced : 0 < fillPrice)
    (admitted : admission settings side sized (book.position symbol) = .submit qty) (now : String)
    (whole : (book.position symbol).qty + qty * direction side = 0 ∨
      dust ≤ |(book.position symbol).qty + qty * direction side|) :
    (book.fill symbol side qty fillPrice now).Balanced symbols initialCash
      (realizedPnl + computeRealizedPnl id (book.position symbol) side qty fillPrice) := by
  have isDust := dust_pos
  have held := balanced.held symbol
  have recorded : ((book.position symbol).fill side qty fillPrice now).Held ∧
      settle book.cash side qty fillPrice - book.cash +
        (((book.position symbol).fill side qty fillPrice now).cost - (book.position symbol).cost) =
      computeRealizedPnl id (book.position symbol) side qty fillPrice := by
    rcases named with buy | sell
    · obtain ⟨taken, -⟩ := admission_buy buy admitted
      have up := direction_of_isBuy buy
      have nonneg : 0 ≤ (book.position symbol).qty := by
        rcases held with none_ | ⟨-, above, -⟩
        · exact none_.ge
        · exact isDust.le.trans above
      have sum : 0 < (book.position symbol).qty + qty := by linarith
      rw [up, mul_one, abs_of_pos sum] at whole
      obtain ⟨heldAfter, cost⟩ := Position.fill_add held up taken priced
        (whole.resolve_left sum.ne') now
      rw [computeRealizedPnl_buy held buy, cost, settle, up, if_pos one_pos]
      exact ⟨heldAfter, by ring⟩
    · obtain ⟨⟨-, long⟩, taken⟩ := admission_sell sell admitted
      have down := direction_of_isSell sell
      obtain ⟨side_, above, entry⟩ := held.resolve_left long.ne'
      have within : qty ≤ (book.position symbol).qty := taken.trans_le (min_le_right _ _)
      rw [down, mul_neg_one, ← sub_eq_add_neg, abs_of_nonneg (by linarith)] at whole
      obtain ⟨heldAfter, cost⟩ := Position.fill_reduce above entry down whole fillPrice now
      rw [computeRealizedPnl_sell side_ long entry sell within, cost, settle, down,
        if_neg (by norm_num)]
      exact ⟨heldAfter, by ring⟩
  constructor
  · intro other
    by_cases same : other = symbol
    · rw [same, Book.fill_position_self]
      exact recorded.1
    · rw [Book.fill_position_other book same]
      exact balanced.held other
  · rw [Book.worth_fill book traded, add_assoc, recorded.2, balanced.worth, add_assoc]

/-! ## Runs of fills -/

/-- An order as the engine sizes it, with what the environment decides while the broker fills it. -/
structure Ticket where
  order : Submission
  choices : ℕ → Choice

/-- The world and the PnL realized so far. -/
structure Account where
  world : World
  realizedPnl : ℚ

/-- Admit an order against the broker's position, place what is admitted and realize its PnL. -/
def Account.fill (settings : Settings) (account : Account) (ticket : Ticket) : Account :=
  let order := ticket.order
  let prior := account.world.book.position order.symbol
  match admission settings order.side order.qty prior with
  | .submit qty =>
      match (PaperBroker.placeOrder id order.symbol order.side qty order.price).exec engineHandler
          ticket.choices account.world with
      | (.ok receipt, world) =>
          { world := world
            realizedPnl := account.realizedPnl +
              computeRealizedPnl id prior order.side qty receipt.fillPrice }
      | (.error _, world) => { account with world := world }
  | _ => account

/-- Account after orders filled one after another. -/
def Account.run (settings : Settings) (account : Account) (tickets : List Ticket) : Account :=
  tickets.foldl (Account.fill settings) account

/-- A buy, long, sell or short order in one of the symbols, filled while Redis answers. -/
structure Ticket.Tradable (symbols : Finset String) (ticket : Ticket) : Prop where
  traded : ticket.order.symbol ∈ symbols
  named : isBuy ticket.order.side = true ∨ isSell ticket.order.side = true
  priced : 0 < ticket.order.price
  redis : ∀ n, (ticket.choices n).redisFails = false

/-- No holding is a remainder below the dust limit. -/
def Book.Whole (book : Book) (symbols : Finset String) : Prop :=
  ∀ symbol ∈ symbols, (book.position symbol).qty = 0 ∨ dust ≤ |(book.position symbol).qty|

instance (book : Book) (symbols : Finset String) : Decidable (book.Whole symbols) :=
  inferInstanceAs (Decidable (∀ symbol ∈ symbols, _))

theorem slippedPrice_pos {side : String} {price : ℚ} (positive : 0 < price)
    (slippage : Slippage) : 0 < slippedPrice id side price slippage := by
  obtain ⟨slippage, low, high⟩ := slippage
  have factor : 0 < 1 + direction side * slippage := by
    rcases direction_eq side with up | down
    · rw [up]
      linarith
    · rw [down]
      linarith
  exact mul_pos positive factor

/-- A tradable order is turned away or placed undisturbed. -/
theorem Account.fill_cases (settings : Settings) (account : Account) {symbols : Finset String}
    {ticket : Ticket} (tradable : ticket.Tradable symbols) :
    account.fill settings ticket = account ∨ ∃ (qty : ℚ) (slippage : Slippage) (now : String),
      admission settings ticket.order.side ticket.order.qty
          (account.world.book.position ticket.order.symbol) = .submit qty ∧
        (account.fill settings ticket).world.book =
          account.world.book.fill ticket.order.symbol ticket.order.side qty
            (slippedPrice id ticket.order.side ticket.order.price slippage) now ∧
        (account.fill settings ticket).realizedPnl = account.realizedPnl +
          computeRealizedPnl id (account.world.book.position ticket.order.symbol) ticket.order.side
            qty (slippedPrice id ticket.order.side ticket.order.price slippage) := by
  unfold Account.fill
  dsimp only
  cases admitted : admission settings ticket.order.side ticket.order.qty
      (account.world.book.position ticket.order.symbol) with
  | rejectSell => exact Or.inl rfl
  | rejectBuy => exact Or.inl rfl
  | submit qty =>
      refine Or.inr ⟨qty, ?_⟩
      have placed : (PaperBroker.placeOrder id ticket.order.symbol ticket.order.side qty
          ticket.order.price).wp (Engine.sequential False)
          (fun outcome after => ∃ (slippage : Slippage) (now brokerOrderId : String),
            outcome = .ok (PaperBroker.receipt ticket.order.symbol ticket.order.side qty
              (slippedPrice id ticket.order.side ticket.order.price slippage) brokerOrderId) ∧
            after.book = account.world.book.fill ticket.order.symbol ticket.order.side qty
              (slippedPrice id ticket.order.side ticket.order.price slippage) now)
          account.world :=
        PaperBroker.wp_placeOrder id { ticket.order with qty := qty } account.world _
          (fun impossible => impossible.elim) fun slippage now brokerOrderId =>
            ⟨slippage, now, brokerOrderId, rfl, World.book_fill ..⟩
      obtain ⟨slippage, now, brokerOrderId, answered, book⟩ :=
        Handler.exec_of_wp placed ticket.choices fun n fails => by simp [tradable.redis n] at fails
      rcases result : (PaperBroker.placeOrder id ticket.order.symbol ticket.order.side qty
        ticket.order.price).exec engineHandler ticket.choices account.world with ⟨outcome, after⟩
      rw [result] at answered book
      obtain rfl := answered
      dsimp only
      rw [result]
      exact ⟨slippage, now, rfl, book, rfl⟩

/-- One tradable order keeps the books balanced. -/
theorem Account.balanced_fill {settings : Settings} {symbols : Finset String} {initialCash : ℚ}
    {account : Account} {ticket : Ticket}
    (balanced : account.world.book.Balanced symbols initialCash account.realizedPnl)
    (tradable : ticket.Tradable symbols)
    (whole : (account.fill settings ticket).world.book.Whole symbols) :
    (account.fill settings ticket).world.book.Balanced symbols initialCash
      (account.fill settings ticket).realizedPnl := by
  rcases account.fill_cases settings tradable with
    unchanged | ⟨qty, slippage, now, admitted, book, realized⟩
  · rw [unchanged]
    exact balanced
  · have wholeAfter := whole ticket.order.symbol tradable.traded
    rw [book, Book.fill_position_self, Position.fill_qty] at wholeAfter
    rw [book, realized]
    exact balanced.fill tradable.traded tradable.named
      (slippedPrice_pos tradable.priced slippage) admitted now wholeAfter

/-- Cash and holdings at cost are worth the initial cash and the realized PnL, at every point of
every run that starts flat. -/
theorem ledger_identity {settings : Settings} {start : World} (flat : start.book.Flat)
    {symbols : Finset String} {tickets : List Ticket}
    (tradable : ∀ ticket ∈ tickets, ticket.Tradable symbols)
    (whole : ∀ earlier, earlier <+: tickets →
      (Account.run settings ⟨start, 0⟩ earlier).world.book.Whole symbols) :
    (Account.run settings ⟨start, 0⟩ tickets).world.book.cash +
        ∑ symbol ∈ symbols,
          ((Account.run settings ⟨start, 0⟩ tickets).world.book.position symbol).qty *
            ((Account.run settings ⟨start, 0⟩ tickets).world.book.position symbol).entryPrice =
      start.book.cash + (Account.run settings ⟨start, 0⟩ tickets).realizedPnl := by
  suffices balanced : (Account.run settings ⟨start, 0⟩ tickets).world.book.Balanced symbols
      start.book.cash (Account.run settings ⟨start, 0⟩ tickets).realizedPnl from balanced.worth
  induction tickets using List.reverseRecOn with
  | nil =>
      refine ⟨fun symbol => Or.inl (flat symbol).2, ?_⟩
      have nothing : ∀ symbol ∈ symbols, (start.book.position symbol).cost = 0 := fun symbol _ => by
        rw [Position.cost, (flat symbol).2, zero_mul]
      show start.book.worth symbols = start.book.cash + 0
      rw [Book.worth, Finset.sum_eq_zero nothing]
  | append_singleton earlier ticket induction =>
      have balanced := induction (fun earlierTicket member => tradable _ (by simp [member]))
        fun prefix_ isPrefix => whole prefix_ (isPrefix.trans (List.prefix_append _ _))
      have wholeAfter := whole _ List.prefix_rfl
      simp only [Account.run, List.foldl_append, List.foldl_cons, List.foldl_nil] at *
      exact Account.balanced_fill balanced (tradable ticket (by simp)) wholeAfter

/-- An order in bitcoin, filled without slippage to speak of. -/
def bitcoinTicket (side : String) (qty price : ℚ) : Ticket where
  order := { symbol := "BTC/USD", side := side, qty := qty, price := price }
  choices _ := {}

/-- A half bought at 100, then a quarter sold at 120. -/
theorem ledger_identity_bitcoin :
    let account := Account.run {} ⟨freshWorld, 0⟩
      [bitcoinTicket "buy" (1 / 2) 100, bitcoinTicket "sell" (1 / 4) 120]
    account.world.book.cash + ∑ symbol ∈ {"BTC/USD"},
        (account.world.book.position symbol).qty * (account.world.book.position symbol).entryPrice =
      freshWorld.book.cash + account.realizedPnl := by
  refine ledger_identity freshWorld_flat (fun ticket member => ?_) fun earlier isPrefix => ?_
  · simp only [List.mem_cons, List.not_mem_nil, or_false] at member
    rcases member with rfl | rfl
    · exact ⟨by decide, by decide, by norm_num [bitcoinTicket], fun _ => rfl⟩
    · exact ⟨by decide, by decide, by norm_num [bitcoinTicket], fun _ => rfl⟩
  · have whole : ∀ earlier ∈ [bitcoinTicket "buy" (1 / 2) 100,
        bitcoinTicket "sell" (1 / 4) 120].inits,
        (Account.run {} ⟨freshWorld, 0⟩ earlier).world.book.Whole {"BTC/USD"} := by
      decide +kernel
    exact whole earlier ((List.mem_inits _ _).mpr isPrefix)

end TradingControl
