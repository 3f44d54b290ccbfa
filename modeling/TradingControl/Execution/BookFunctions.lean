import TradingControl.Execution.FallbackGuard
import TradingControl.Execution.Ledger

/-!
# The pure position functions against the broker's book

The broker keeps a short position as a negative quantity.  The pure functions expect a quantity
without a sign beside the side, all but the one that reads the signed quantity.  So they agree with
the book while it is long or flat, and with no fill in a short position.
-/

namespace TradingControl

open Effects Python

/-! ## The next position -/

/-- The position that `apply_signed_delta` returns. -/
structure AppliedPosition where
  symbol : String
  side : String
  qty : ℚ
  quantity : ℚ
  entryPrice : ℚ
  avgCost : ℚ
  lastPrice : ℚ
  currentPrice : ℚ
  marketValue : ℚ
  unrealizedPnl : ℚ
  pnl : ℚ
  strategyId : String
deriving DecidableEq

/-- `apply_signed_delta`: the position after a fill, `none` where it is flat. -/
def applySignedDelta (round8 : ℚ → ℚ) (existing : Position) (side : String) (qty fillPrice : ℚ)
    (strategyId symbol : String) : Option AppliedPosition :=
  let signedQty := if isBuy side then qty else -1 * qty
  let existingSigned := existing.qty * if isBuy (sideStr existing.side) then 1 else -1
  let newSigned := existingSigned + signedQty
  if |newSigned| < dust then none
  else
    some
      { symbol := symbol
        side := if 0 < newSigned then "long" else "short"
        qty := |newSigned|
        quantity := |newSigned|
        entryPrice := existing.entryOr fillPrice
        avgCost := existing.entryOr fillPrice
        lastPrice := fillPrice
        currentPrice := fillPrice
        marketValue := round8 (|newSigned| * fillPrice)
        unrealizedPnl := 0
        pnl := 0
        strategyId := strategyId }

/-- What `signed_position_qty` reads of it. -/
def AppliedPosition.position (applied : AppliedPosition) : Position where
  side := applied.side
  qty := applied.qty
  entryPrice := applied.entryPrice
  currentPrice := applied.currentPrice
  openedAt := none

/-- `signed_position_qty` of the next position, 0 for `None`. -/
def signedAppliedQty (applied : Option AppliedPosition) : ℚ :=
  applied.elim 0 fun applied => signedPositionQty applied.position

/-- Signed quantity of the next position: the sum, where it is not flat. -/
theorem signedAppliedQty_applySignedDelta (round8 : ℚ → ℚ) (existing : Position) (side : String)
    (qty fillPrice : ℚ) (strategyId symbol : String) :
    signedAppliedQty (applySignedDelta round8 existing side qty fillPrice strategyId symbol) =
      let newSigned := (existing.qty * if isBuy (sideStr existing.side) then 1 else -1) +
        if isBuy side then qty else -qty
      if |newSigned| < dust then 0 else newSigned := by
  have named : sideStr "long" = "long" ∧ sideStr "short" = "short" := by decide
  rw [applySignedDelta, neg_one_mul]
  dsimp only
  generalize (existing.qty * if isBuy (sideStr existing.side) = true then 1 else -1) +
    (if isBuy side = true then qty else -qty) = newSigned
  split_ifs with small positive
  · rfl
  · simp [signedAppliedQty, AppliedPosition.position, signedPositionQty, named, abs_of_pos positive]
  · simp [signedAppliedQty, AppliedPosition.position, signedPositionQty, named,
      abs_of_nonpos (not_lt.mp positive)]

/-! ## Agreement at one fill -/

/-- Direction of a stored position. -/
def Position.held (position : Position) : ℚ :=
  if position.side = "long" then 1 else if position.side = "short" then -1 else 0

/-- Quantity that a fill closes. -/
def Position.closedQty (prior : Position) (side : String) (qty : ℚ) : ℚ :=
  if direction side = -prior.held then min qty |prior.qty| else 0

/-- The pure functions say what the book says about a fill. -/
structure FunctionsAgree (prior after : Position) (symbol side : String) (qty fillPrice : ℚ) :
    Prop where
  closes : isRoundTripClose prior side = true ↔ direction side = -prior.held
  pnl : computeRealizedPnl id prior side qty fillPrice =
    prior.closedQty side qty * ((fillPrice - prior.entryPrice) * prior.held)
  delta : ∀ strategyId,
    signedAppliedQty (applySignedDelta id prior side qty fillPrice strategyId symbol) = after.qty

/-- The fill meets no short position and leaves no remainder below the dust limit. -/
def MeetsFunctions (prior : Position) (side : String) (qty : ℚ) : Prop :=
  prior.side ≠ "short" ∧ (prior.qty + qty * direction side = 0 ∨
    dust ≤ |prior.qty + qty * direction side|)

section

variable {prior after : Position} {symbol side : String} {qty fillPrice : ℚ}

theorem sideStr_words : sideStr "long" = "long" ∧ sideStr "short" = "short" ∧
    sideStr "flat" = "flat" := by decide

/-- An order named by the functions has the direction they give it. -/
theorem directions_of_named (named : isBuy side = true ∨ isSell side = true) :
    (isBuy side = true ∧ isSell side = false ∧ direction side = 1) ∨
      (isBuy side = false ∧ isSell side = true ∧ direction side = -1) := by
  rcases named with buy | sell
  · refine Or.inl ⟨buy, ?_, direction_of_isBuy buy⟩
    rw [← Bool.not_eq_true]
    intro sell
    rw [not_isBuy_of_isSell sell] at buy
    cases buy
  · exact Or.inr ⟨not_isBuy_of_isSell sell, sell, direction_of_isSell sell⟩

/-- Where the quantity has its sign already, the next position has that of the book but for a
remainder of dust. -/
theorem delta_iff (named : isBuy side = true ∨ isSell side = true)
    (signed : (prior.qty * if isBuy (sideStr prior.side) then 1 else -1) = prior.qty)
    (book : after.qty = prior.qty + qty * direction side) :
    (∀ strategyId, signedAppliedQty (applySignedDelta id prior side qty fillPrice strategyId
        symbol) = after.qty) ↔
      prior.qty + qty * direction side = 0 ∨ dust ≤ |prior.qty + qty * direction side| := by
  have delta : (if isBuy side = true then qty else -qty) = qty * direction side := by
    rcases directions_of_named named with ⟨buy, -, up⟩ | ⟨notBuy, -, down⟩
    · rw [if_pos buy, up, mul_one]
    · rw [if_neg (by simp [notBuy]), down, mul_neg_one]
  simp only [signedAppliedQty_applySignedDelta, signed, delta, book, forall_const]
  split_ifs with small
  · rw [eq_comm, or_iff_left (not_le.mpr small)]
  · exact iff_of_true rfl (Or.inr (not_lt.mp small))

/-- Against a long position the functions agree with the book but for a remainder of dust. -/
theorem functionsAgree_iff_long (long : prior.side = "long" ∧ 0 < prior.qty)
    (entry : 0 < prior.entryPrice) (named : isBuy side = true ∨ isSell side = true)
    (book : after.qty = prior.qty + qty * direction side) :
    FunctionsAgree prior after symbol side qty fillPrice ↔ MeetsFunctions prior side qty := by
  have signed : (prior.qty * if isBuy (sideStr prior.side) then 1 else -1) = prior.qty := by
    rw [long.1, sideStr_words.1, if_pos (by decide), mul_one]
  have held : prior.held = 1 := if_pos long.1
  have priorSide := Position.priorSide_long long.1
  constructor
  · intro agree
    exact ⟨by rw [long.1]; decide, (delta_iff named signed book).mp agree.delta⟩
  · rintro ⟨-, remainder⟩
    refine ⟨?_, ?_, (delta_iff named signed book).mpr remainder⟩
    · rw [isRoundTripClose, if_neg (not_le.mpr long.2), priorSide, held]
      rcases directions_of_named named with ⟨buy, notSell, up⟩ | ⟨notBuy, sell, down⟩
      · have apart : "long" ≠ "short" := by decide
        have forth : (1 : ℚ) ≠ -1 := by norm_num
        simp [notSell, up, apart, forth]
      · simp [sell, down]
    · rw [computeRealizedPnl, Position.closedQty, held, priorSide, Position.entryOr,
        if_neg entry.ne', abs_of_pos long.2]
      rcases directions_of_named named with ⟨buy, notSell, up⟩ | ⟨notBuy, sell, down⟩
      · rw [if_neg (by simp [notSell]), if_neg (by simp), up, if_neg (by norm_num), zero_mul]
      · rw [if_pos ⟨rfl, sell, long.2⟩, down, if_pos rfl, id, mul_one, mul_comm]

/-- Against a flat position they agree when the fill opens more than dust. -/
theorem functionsAgree_iff_flat (flat : prior.side = "flat" ∧ prior.qty = 0)
    (named : isBuy side = true ∨ isSell side = true)
    (book : after.qty = prior.qty + qty * direction side) :
    FunctionsAgree prior after symbol side qty fillPrice ↔ MeetsFunctions prior side qty := by
  have signed : (prior.qty * if isBuy (sideStr prior.side) then 1 else -1) = prior.qty := by
    rw [flat.2, zero_mul]
  have held : prior.held = 0 := by
    rw [Position.held, flat.1, if_neg (by decide), if_neg (by decide)]
  have moves : direction side ≠ -prior.held := by
    rw [held]
    rcases direction_eq side with up | down
    · rw [up]
      norm_num
    · rw [down]
      norm_num
  constructor
  · intro agree
    exact ⟨by rw [flat.1]; decide, (delta_iff named signed book).mp agree.delta⟩
  · rintro ⟨-, remainder⟩
    refine ⟨?_, ?_, (delta_iff named signed book).mpr remainder⟩
    · rw [isRoundTripClose, if_pos flat.2.le]
      exact iff_of_false Bool.false_ne_true moves
    · rw [computeRealizedPnl, if_neg (by simp [flat.2]), if_neg (by simp [flat.2]), held, mul_zero,
        mul_zero]

/-- Against a short position they never agree. -/
theorem not_functionsAgree_short (short : prior.side = "short" ∧ prior.qty < 0)
    (positive : 0 < qty) (named : isBuy side = true ∨ isSell side = true)
    (book : after.qty = prior.qty + qty * direction side) :
    ¬FunctionsAgree prior after symbol side qty fillPrice := by
  intro agree
  have held : prior.held = -1 := by
    rw [Position.held, short.1, if_neg (by decide), if_pos rfl]
  rcases directions_of_named named with ⟨-, -, up⟩ | ⟨notBuy, -, down⟩
  · -- the close of a short position goes unseen
    have closes := agree.closes.mpr (by rw [up, held, neg_neg])
    rw [isRoundTripClose, if_pos short.2.le] at closes
    cases closes
  · -- the quantity of a short position has its sign taken away
    have shrinks := agree.delta ""
    rw [signedAppliedQty_applySignedDelta, short.1, sideStr_words.2.1, book, down, notBuy]
      at shrinks
    have words : isBuy "short" = false := by decide
    simp only [words, Bool.false_eq_true, if_false] at shrinks
    split_ifs at shrinks <;> linarith [short.2]

/-! ## Runs of fills -/

/-- A position as a run of fills leaves it: what is open has a price, and nothing flat is left over
while the functions agree. -/
structure Position.Accounted (position : Position) : Prop where
  stored : position.Stored
  entry : position.side ≠ "flat" → 0 < position.entryPrice
  whole : position.side = "flat" → position.qty = 0

theorem functionsAgree_iff (accounted : prior.Accounted) (positive : 0 < qty)
    (named : isBuy side = true ∨ isSell side = true)
    (book : after.qty = prior.qty + qty * direction side) :
    FunctionsAgree prior after symbol side qty fillPrice ↔ MeetsFunctions prior side qty := by
  rcases accounted.stored with long | short | ⟨flat, -⟩
  · exact functionsAgree_iff_long long (accounted.entry (by rw [long.1]; decide)) named book
  · exact iff_of_false (not_functionsAgree_short short positive named book) fun meets =>
      meets.1 short.1
  · exact functionsAgree_iff_flat ⟨flat, accounted.whole flat⟩ named book

theorem Position.fill_entryPrice (prior : Position) (side : String) (qty fillPrice : ℚ)
    (now : String) :
    (prior.fill side qty fillPrice now).entryPrice =
      if |prior.qty + qty * direction side| < dust then 0
      else if |prior.qty| < dust ∨ prior.entryPrice ≤ 0 then fillPrice
      else if 0 < prior.qty ↔ 0 < direction side then
        (prior.entryPrice * |prior.qty| + fillPrice * qty) / |prior.qty + qty * direction side|
      else if ¬(0 < prior.qty ↔ 0 < prior.qty + qty * direction side) then fillPrice
      else prior.entryPrice := by
  unfold Position.fill
  dsimp only
  split_ifs <;> rfl

theorem Position.entry_fill (positive : 0 < qty) (priced : 0 < fillPrice) (now : String)
    (open_ : (prior.fill side qty fillPrice now).side ≠ "flat") :
    0 < (prior.fill side qty fillPrice now).entryPrice := by
  have large : ¬|prior.qty + qty * direction side| < dust := by
    intro small
    rw [Position.fill_side, if_pos small] at open_
    exact open_ rfl
  rw [Position.fill_entryPrice, if_neg large]
  split_ifs with fresh added kept
  · exact priced
  · -- the average of two prices
    rw [not_or, not_le] at fresh
    have entry := fresh.2
    have whole := dust_pos.trans_le (not_lt.mp large)
    positivity
  · rw [not_or, not_le] at fresh
    exact fresh.2
  · exact priced

/-- A fill that the functions agree on leaves such a position. -/
theorem Position.accounted_fill (meets : MeetsFunctions prior side qty) (positive : 0 < qty)
    (priced : 0 < fillPrice) (now : String) :
    (prior.fill side qty fillPrice now).Accounted := by
  refine ⟨Position.stored_fill .., Position.entry_fill positive priced now, ?_⟩
  · intro flat
    rw [Position.fill_qty]
    rw [Position.fill_side] at flat
    refine meets.2.resolve_right fun large => ?_
    split_ifs at flat with small
    · exact absurd large (not_le.mpr small)
    · exact absurd flat (by decide)
    · exact absurd flat (by decide)

end

/-- `place_order` in exact arithmetic, under the choices of a ticket. -/
def World.place (world : World) (ticket : Ticket) : Except Failure BrokerOrder × World :=
  (PaperBroker.placeOrder id ticket.order.symbol ticket.order.side ticket.order.qty
    ticket.order.price).exec engineHandler ticket.choices world

/-- Something holds at every fill of a run. -/
def EveryFill (holds : World → Ticket → Prop) : World → List Ticket → Prop
  | _, [] => True
  | world, ticket :: tickets => holds world ticket ∧ EveryFill holds (world.place ticket).2 tickets

/-- A buy or sell of some quantity of the symbol, at a positive price, while Redis answers. -/
structure Ticket.Fills (symbol : String) (ticket : Ticket) : Prop extends
    ticket.Tradable {symbol} where
  positive : 0 < ticket.order.qty

/-- The pure functions agree with the book on the fill of a ticket. -/
def AgreesOn (world : World) (ticket : Ticket) : Prop :=
  ∃ receipt, (world.place ticket).1 = .ok receipt ∧
    FunctionsAgree (world.book.position ticket.order.symbol)
      ((world.place ticket).2.book.position ticket.order.symbol) ticket.order.symbol
      ticket.order.side ticket.order.qty receipt.fillPrice

/-- The ticket meets no short position and leaves no remainder. -/
def MeetsOn (world : World) (ticket : Ticket) : Prop :=
  MeetsFunctions (world.book.position ticket.order.symbol) ticket.order.side ticket.order.qty

theorem World.place_cases (world : World) {symbol : String} {ticket : Ticket}
    (fills : ticket.Fills symbol) :
    ∃ receipt now, (world.place ticket).1 = .ok receipt ∧ 0 < receipt.fillPrice ∧
      (world.place ticket).2.book.position ticket.order.symbol =
        (world.book.position ticket.order.symbol).fill ticket.order.side ticket.order.qty
          receipt.fillPrice now := by
  have placed : (PaperBroker.placeOrder id ticket.order.symbol ticket.order.side ticket.order.qty
      ticket.order.price).wp (Engine.sequential False)
      (fun outcome after => ∃ receipt now, outcome = .ok receipt ∧ 0 < receipt.fillPrice ∧
        after.book.position ticket.order.symbol =
          (world.book.position ticket.order.symbol).fill ticket.order.side ticket.order.qty
            receipt.fillPrice now) world :=
    PaperBroker.wp_placeOrder id ticket.order world _ (fun impossible => impossible.elim)
      fun slippage now brokerOrderId =>
        ⟨_, now, rfl, slippedPrice_pos fills.priced slippage, by
          rw [World.book_fill, Book.fill_position_self]
          rfl⟩
  exact Handler.exec_of_wp placed ticket.choices fun n fails => by simp [fills.redis n] at fails

/-- One fill: the functions agree on it exactly when it meets the condition, and then the position
it leaves is accounted for. -/
theorem agreesOn_iff {world : World} {symbol : String} {ticket : Ticket}
    (accounted : (world.book.position symbol).Accounted) (fills : ticket.Fills symbol) :
    (AgreesOn world ticket ↔ MeetsOn world ticket) ∧
      (MeetsOn world ticket → ((world.place ticket).2.book.position symbol).Accounted) := by
  obtain rfl := Finset.mem_singleton.mp fills.traded
  obtain ⟨receipt, now, answered, priced, book⟩ := world.place_cases fills
  have step := @functionsAgree_iff _ _ ticket.order.symbol _ _ receipt.fillPrice accounted
    fills.positive fills.named (book ▸ Position.fill_qty ..)
  constructor
  · rw [MeetsOn, ← step, AgreesOn]
    constructor
    · rintro ⟨other, same, agree⟩
      rw [answered] at same
      cases same
      exact agree
    · intro agree
      exact ⟨receipt, answered, agree⟩
  · intro meets
    rw [book]
    exact Position.accounted_fill meets fills.positive priced now

theorem everyFill_agrees_iff {world : World} {symbol : String} {tickets : List Ticket}
    (accounted : (world.book.position symbol).Accounted)
    (fills : ∀ ticket ∈ tickets, ticket.Fills symbol) :
    EveryFill AgreesOn world tickets ↔ EveryFill MeetsOn world tickets := by
  induction tickets generalizing world with
  | nil => exact Iff.rfl
  | cons ticket tickets induction =>
      obtain ⟨first, others⟩ := List.forall_mem_cons.mp fills
      obtain ⟨same, kept⟩ := agreesOn_iff accounted first
      rw [EveryFill, EveryFill, same]
      exact and_congr_right fun meets => induction (kept meets) others

/-- Along every run of fills from flat, the pure functions agree with the book at every fill exactly
when no fill meets a short position or leaves a remainder of dust. -/
theorem functions_agree_iff {symbol : String} {start : World} {tickets : List Ticket}
    (flat : (start.book.position symbol).side = "flat" ∧ (start.book.position symbol).qty = 0)
    (fills : ∀ ticket ∈ tickets, ticket.Fills symbol) :
    EveryFill AgreesOn start tickets ↔ EveryFill MeetsOn start tickets :=
  everyFill_agrees_iff
    ⟨Or.inr (Or.inr ⟨flat.1, by rw [flat.2, abs_zero]; exact dust_pos⟩),
      fun open_ => absurd flat.1 open_, fun _ => flat.2⟩ fills

theorem bitcoinTicket_fills {side : String} {qty price : ℚ}
    (named : isBuy side = true ∨ isSell side = true) (positive : 0 < qty) (priced : 0 < price) :
    (bitcoinTicket side qty price).Fills "BTC/USD" :=
  ⟨⟨Finset.mem_singleton_self _, named, priced, fun _ => rfl⟩, positive⟩

/-- One bought at 100 and sold at 120. -/
theorem functions_agree_roundTrip :
    EveryFill AgreesOn freshWorld [bitcoinTicket "buy" 1 100, bitcoinTicket "sell" 1 120] ↔
      EveryFill MeetsOn freshWorld [bitcoinTicket "buy" 1 100, bitcoinTicket "sell" 1 120] := by
  refine functions_agree_iff (freshWorld_flat "BTC/USD") fun ticket member => ?_
  simp only [List.mem_cons, List.not_mem_nil, or_false] at member
  rcases member with rfl | rfl
  · exact bitcoinTicket_fills (by decide) (by norm_num) (by norm_num)
  · exact bitcoinTicket_fills (by decide) (by norm_num) (by norm_num)

/-- Two sold short at 100 and one bought back at 90: the functions see no close. -/
theorem functions_disagree_short :
    ¬∀ (symbol : String) (start : World) (tickets : List Ticket),
      (start.book.position symbol).side = "flat" ∧ (start.book.position symbol).qty = 0 →
      (∀ ticket ∈ tickets, ticket.Fills symbol) → EveryFill AgreesOn start tickets := by
  intro always
  have agrees := always "BTC/USD" freshWorld [bitcoinTicket "sell" 2 100, bitcoinTicket "buy" 1 90]
    (freshWorld_flat "BTC/USD") fun ticket member => by
      simp only [List.mem_cons, List.not_mem_nil, or_false] at member
      rcases member with rfl | rfl
      · exact bitcoinTicket_fills (by decide) (by norm_num) (by norm_num)
      · exact bitcoinTicket_fills (by decide) (by norm_num) (by norm_num)
  obtain ⟨-, ⟨receipt, -, agree⟩, -⟩ := agrees
  have unseen : isRoundTripClose ((freshWorld.place (bitcoinTicket "sell" 2 100)).2.book.position
      "BTC/USD") "buy" = false := by decide +kernel
  have short : direction "buy" = -((freshWorld.place (bitcoinTicket "sell" 2 100)).2.book.position
      "BTC/USD").held := by decide +kernel
  exact Bool.false_ne_true (unseen.symm.trans (agree.closes.mpr short))

end TradingControl
