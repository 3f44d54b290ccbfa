import TradingControl.Execution.LongOnly

/-!
# Fallback decisions of a live engine

The guard on fallback decisions measures the nominal quantity against the position.  Kelly sizing
replaces that quantity afterwards, so the guard's promises are those of the sized order exactly
where sizing keeps the nominal quantity or stays inside the same bounds.
-/

namespace TradingControl

open Effects Python Engine

/-! ## Stored positions -/

/-- A position as the broker stores it: its side is the sign of its quantity. -/
def Position.Stored (position : Position) : Prop :=
  (position.side = "long" ∧ 0 < position.qty) ∨ (position.side = "short" ∧ position.qty < 0) ∨
    (position.side = "flat" ∧ |position.qty| < dust)

/-- Every order leaves a position of this form. -/
theorem Position.stored_fill (prior : Position) (side : String) (qty fillPrice : ℚ) (now : String) :
    (prior.fill side qty fillPrice now).Stored := by
  rw [Position.Stored, Position.fill_side, Position.fill_qty]
  have isDust : (0 : ℚ) < dust := by norm_num [dust]
  split_ifs with small positive
  · exact Or.inr (Or.inr ⟨rfl, small⟩)
  · exact Or.inl ⟨rfl, positive⟩
  · refine Or.inr (Or.inl ⟨rfl, ?_⟩)
    rcases (not_lt.mp positive).lt_or_eq with negative | zero
    · exact negative
    · rw [zero, abs_zero] at small
      exact absurd isDust small

theorem flatPosition_stored : flatPosition.Stored :=
  Or.inr (Or.inr ⟨rfl, by norm_num [flatPosition, dust]⟩)

/-- The signed quantity of a stored position is its quantity. -/
theorem Position.Stored.signed {position : Position} (stored : position.Stored) :
    signedPositionQty position = position.qty := by
  have named : sideStr "long" = "long" ∧ sideStr "short" = "short" ∧ sideStr "flat" = "flat" := by
    decide
  rcases stored with ⟨side, positive⟩ | ⟨side, negative⟩ | ⟨side, -⟩
  · simp [signedPositionQty, side, named, abs_of_pos positive]
  · simp [signedPositionQty, side, named, abs_of_neg negative]
  · simp [signedPositionQty, side, named]

/-! ## What the guard promises -/

/-- Small order, no change of sign, no growth past the cap. -/
structure FallbackSafe (settings : Settings) (symbol : String) (before after : World) : Prop where
  small : ∀ order ∈ after.submitted.drop before.submitted.length,
    order.qty ≤ settings.maxFallbackOrderQty
  sameSign : ¬((before.book.position symbol).qty < 0 ∧ 0 < (after.book.position symbol).qty) ∧
    ¬(0 < (before.book.position symbol).qty ∧ (after.book.position symbol).qty < 0)
  capped : |(before.book.position symbol).qty| < |(after.book.position symbol).qty| →
    |(after.book.position symbol).qty| ≤ settings.maxPosition

/-- Kelly sizing keeps the nominal quantity, or what it and the clamps leave is inside the bounds
that the guard checked the nominal quantity against. -/
def SizingWithinGuard (settings : Settings) (parsed : ParsedDecision) (sizePct : ℚ) (book : Book) :
    Prop :=
  let held := (book.position parsed.symbol).qty
  let room := if parsed.side = "buy" then settings.maxPosition - held else held
  let resized := min (sizePct * book.cash / parsed.price) room
  sizePct ≤ 0 ∨ book.cash ≤ 0 ∨
    (resized ≤ settings.maxFallbackOrderQty ∧ (held < 0 → resized ≤ -held))

/-- The guard's verdict on a nominal quantity, as inequalities. -/
theorem passes_of_not_blocked {settings : Settings} {qty held : ℚ}
    (passes : fallbackExposureBlocked settings "buy" qty held = false) (short : held < 0) :
    qty ≤ -held := by
  by_contra exceeds
  rw [not_le] at exceeds
  have flips : held < 0 ∧ 0 < held + qty := ⟨short, by linarith⟩
  simp [fallbackExposureBlocked, flips] at passes

/-- Quantity a decision is sized to: its Kelly quantity unless the fraction or the cash is spent. -/
theorem sizedQty_cases {sizePct cash qty price : ℚ} (positive : 0 < price) :
    ((sizePct ≤ 0 ∨ cash ≤ 0) ∧ sizedQty sizePct cash qty price = qty) ∨
      (0 < sizePct ∧ 0 < cash ∧ sizedQty sizePct cash qty price = sizePct * cash / price) := by
  rw [sizedQty, kellyQty]
  by_cases fraction : sizePct ≤ 0
  · exact Or.inl ⟨Or.inl fraction, if_pos (Or.inl fraction)⟩
  rw [not_le] at fraction
  rw [if_neg (by simp [fraction, positive])]
  by_cases spent : cash ≤ 0
  · refine Or.inl ⟨Or.inr spent, if_neg (not_lt.mpr ?_)⟩
    exact div_nonpos_of_nonpos_of_nonneg (mul_nonpos_of_nonneg_of_nonpos fraction.le spent)
      positive.le
  · rw [not_le] at spent
    exact Or.inr ⟨fraction, spent, if_pos (div_pos (mul_pos fraction spent) positive)⟩

/-- Promises of an admitted buy, in terms of the admitted quantity. -/
theorem buy_promises_iff {held qty limit cap : ℚ} (positive : 0 < qty) (room : qty ≤ cap - held) :
    (qty ≤ limit ∧ (¬(held < 0 ∧ 0 < held + qty) ∧ ¬(0 < held ∧ held + qty < 0)) ∧
        (|held| < |held + qty| → |held + qty| ≤ cap)) ↔
      qty ≤ limit ∧ (held < 0 → qty ≤ -held) := by
  constructor
  · rintro ⟨small, ⟨noFlip, -⟩, -⟩
    refine ⟨small, fun short => ?_⟩
    by_contra exceeds
    exact noFlip ⟨short, by linarith [not_le.mp exceeds]⟩
  · rintro ⟨small, covers⟩
    refine ⟨small, ⟨fun ⟨short, long⟩ => ?_, fun ⟨long, short⟩ => ?_⟩, fun grows => ?_⟩
    · linarith [covers short]
    · linarith
    · rcases lt_or_ge held 0 with short | long
      · have covered := covers short
        rw [abs_of_neg short, abs_of_nonpos (by linarith)] at grows
        linarith
      · rw [abs_of_nonneg (by linarith)]
        linarith

theorem sell_promises_iff {held qty limit cap : ℚ} (long : 0 < held) (positive : 0 < qty)
    (within : qty ≤ held) :
    (qty ≤ limit ∧ (¬(held < 0 ∧ 0 < held + -qty) ∧ ¬(0 < held ∧ held + -qty < 0)) ∧
        (|held| < |held + -qty| → |held + -qty| ≤ cap)) ↔
      qty ≤ limit ∧ (held < 0 → qty ≤ -held) := by
  constructor
  · rintro ⟨small, -, -⟩
    exact ⟨small, fun short => by linarith⟩
  · rintro ⟨small, -⟩
    refine ⟨small, ⟨fun ⟨short, _⟩ => by linarith, fun ⟨_, short⟩ => by linarith⟩, fun grows => ?_⟩
    rw [abs_of_pos long, abs_of_nonneg (by linarith)] at grows
    linarith

/-- The promises, once the order is known. -/
theorem fallbackSafe_filled {settings : Settings} {symbol : String} {before after : World}
    {order : Submission} (submitted : after.submitted = before.submitted ++ [order]) :
    FallbackSafe settings symbol before after ↔
      order.qty ≤ settings.maxFallbackOrderQty ∧
        (¬((before.book.position symbol).qty < 0 ∧ 0 < (after.book.position symbol).qty) ∧
          ¬(0 < (before.book.position symbol).qty ∧ (after.book.position symbol).qty < 0)) ∧
        (|(before.book.position symbol).qty| < |(after.book.position symbol).qty| →
          |(after.book.position symbol).qty| ≤ settings.maxPosition) := by
  have orders : after.submitted.drop before.submitted.length = [order] := by
    rw [submitted, List.drop_left]
  constructor
  · intro safe
    exact ⟨safe.small order (by simp [orders]), safe.sameSign, safe.capped⟩
  · rintro ⟨small, sameSign, capped⟩
    refine ⟨fun other member => ?_, sameSign, capped⟩
    rw [orders, List.mem_singleton] at member
    rw [member]
    exact small

/-- The guard's bounds on the sized and clamped quantity follow from those on the nominal one
where sizing keeps it, and are the bounds on the Kelly quantity elsewhere. -/
theorem bounds_iff_sizingWithinGuard {settings : Settings} {data : Decision}
    {parsed : ParsedDecision} {book : Book} {sizePct qty : ℚ} (positive : 0 < parsed.price)
    (stored : (book.position parsed.symbol).Stored)
    (guarded : fallbackGuarded settings data (lower parsed.side) = true)
    (lowered : lower parsed.side = parsed.side)
    (unblocked : FallbackPasses settings data parsed book)
    (taken : qty = min (sizedQty sizePct book.cash parsed.qty parsed.price)
      (if parsed.side = "buy" then settings.maxPosition - (book.position parsed.symbol).qty
        else (book.position parsed.symbol).qty))
    (held : parsed.side ≠ "buy" → 0 < (book.position parsed.symbol).qty) :
    (qty ≤ settings.maxFallbackOrderQty ∧ ((book.position parsed.symbol).qty < 0 →
        qty ≤ -(book.position parsed.symbol).qty)) ↔
      SizingWithinGuard settings parsed sizePct book := by
  unfold SizingWithinGuard
  dsimp only
  rcases sizedQty_cases positive with ⟨spent, nominal⟩ | ⟨fraction, funded, resized⟩
  · rw [nominal] at taken
    refine ⟨fun _ => spent.imp_right Or.inl, fun _ => ?_⟩
    have clamped : qty ≤ parsed.qty := by
      rw [taken]
      exact min_le_left _ _
    refine ⟨clamped.trans (unblocked.small guarded), fun short => clamped.trans ?_⟩
    by_cases buy : parsed.side = "buy"
    · have passes := unblocked.exposure guarded
      rw [lowered, buy, stored.signed] at passes
      exact passes_of_not_blocked passes short
    · exact absurd short (held buy).not_gt
  · rw [resized] at taken
    rw [← taken]
    simp only [fraction.not_ge, funded.not_ge, false_or]

/-- A live fallback order keeps the guard's promises exactly where sizing stays inside them. -/
theorem fallbackSafe_iff (config : Config) (world : World) (delivery : Delivery)
    {strategyId traceId : String} {parsed : ParsedDecision} {sizePct : ℚ}
    (redis : ∀ n, (delivery.choices n).redisFails = false)
    (live : config.settings.simulated = false)
    (flagged : delivery.data.isFallback = true)
    (accepted : parseDecisionFields strategyId traceId delivery.data = .ok parsed)
    (side : parsed.side = "buy" ∨ parsed.side = "sell")
    (fraction : delivery.data.sizePct.toFloatOrZero = some sizePct)
    (stored : (world.book.position parsed.symbol).Stored)
    (submitted : (deliver config world delivery).submitted ≠ world.submitted) :
    FallbackSafe config.settings parsed.symbol world (deliver config world delivery) ↔
      SizingWithinGuard config.settings parsed sizePct world.book := by
  obtain ⟨order, qty, slippage, fill⟩ := filled_of_submitted config delivery world redis submitted
  obtain ⟨⟨same, prepared⟩, admitted, ⟨now, book⟩, placed⟩ := fill
  obtain ⟨sizePct', found, sized⟩ := prepared.sizedQty_eq
  obtain rfl : sizePct = sizePct' := Option.some.inj (fraction.symm.trans found)
  -- both parses read the same fields
  obtain ⟨otherStrategyId, otherTraceId, otherAccepted⟩ := prepared.accepted
  obtain ⟨symbolEq, sideEq, qtyEq, priceEq, -⟩ := parseDecisionFields_fields accepted
  obtain ⟨symbolEq', sideEq', qtyEq', priceEq', -⟩ := parseDecisionFields_fields otherAccepted
  have symbols : same.symbol = parsed.symbol := symbolEq'.trans symbolEq.symm
  have sides : same.side = parsed.side := sideEq'.trans sideEq.symm
  have qtys : same.qty = parsed.qty := Option.some.inj (qtyEq'.symm.trans qtyEq)
  have prices : same.price = parsed.price := Option.some.inj (priceEq'.symm.trans priceEq)
  have positive := (parseDecisionFields_pos accepted).2
  have lowered : lower parsed.side = parsed.side := by
    rw [sideEq, Decision.sideOrAction, lower_lower]
  have guarded : fallbackGuarded config.settings delivery.data (lower parsed.side) = true := by
    rw [lowered]
    rcases side with buy | sell
    · simp [fallbackGuarded, buy, flagged, live]
    · simp [fallbackGuarded, sell, flagged, live]
  have unblocked : FallbackPasses config.settings delivery.data parsed world.book := by
    have passes := prepared.unblocked
    exact ⟨by simpa [sides] using passes.allowed, by simpa [sides, qtys] using passes.small,
      by simpa [sides, qtys, symbols] using passes.exposure⟩
  rw [prepared.symbol, symbols, prepared.side, sides, sized, qtys, prices] at admitted
  rw [fallbackSafe_filled placed, book, prepared.symbol, symbols, Book.fill_position_self,
    Position.fill_qty, prepared.side, sides]
  rcases side with buy | sell
  · have isBuySide : isBuy parsed.side = true := by
      rw [buy]
      decide
    obtain ⟨room, taken⟩ := admission_buy isBuySide admitted
    rw [stored.signed] at taken
    rw [direction_of_isBuy isBuySide, mul_one, buy_promises_iff room]
    · apply bounds_iff_sizingWithinGuard positive stored guarded lowered unblocked
      · rw [if_pos buy]
        exact taken
      · exact fun notBuy => absurd buy notBuy
    · rw [taken]
      exact min_le_right _ _
  · have isSellSide : isSell parsed.side = true := by
      rw [sell]
      decide
    have notBuy : parsed.side ≠ "buy" := by
      rw [sell]
      decide
    obtain ⟨⟨-, long⟩, taken⟩ := admission_sell isSellSide admitted
    rw [direction_of_isSell isSellSide, mul_neg_one, sell_promises_iff long]
    · apply bounds_iff_sizingWithinGuard positive stored guarded lowered unblocked
      · rw [if_neg notBuy]
        exact taken
      · exact fun _ => long
    · rw [taken]
      exact lt_min (sizedQty_pos (parseDecisionFields_pos accepted).1) long
    · rw [taken]
      exact min_le_right _ _

/-! ## Decisions that are never prepared -/

/-- A decision of which no order can be made leaves book, rows and broker alone. -/
theorem wp_process_unprepared {faults : Prop} {config : Config} {data : Decision} (world : World)
    (unprepared : ∀ parsed order, ¬Prepared faults config data world.book parsed order) :
    (process config data).wp (sequential faults) (fun _ after => Untouched world after) world := by
  have idle : ∀ after, Steady world after → Untouched world after :=
    fun after steady => steady.untouched
  -- both paths prepare the order first
  refine wp_process_of_paths world idle (fun checked steady => ?_) fun checked steady => ?_
  · rw [processWithDb]
    rw [Program.bind_eq_bind, Program.wp_bind]
    exact wp_prepareOrder steady (fun _ => idle) idle
      fun parsed order _ _ prepared => absurd prepared (unprepared parsed order)
  · rw [processInMemory]
    rw [Program.bind_eq_bind, Program.wp_bind]
    exact wp_prepareOrder steady (fun _ => idle) idle
      fun parsed order _ _ prepared => absurd prepared (unprepared parsed order)

theorem deliver_fallback_blocked (config : Config) (world : World) (delivery : Delivery)
    (live : config.settings.simulated = false)
    (forbidden : config.settings.allowFallbackTrades = false)
    (flagged : delivery.data.isFallback = true)
    (side : delivery.data.sideOrAction = "buy" ∨ delivery.data.sideOrAction = "sell") :
    Untouched world (deliver config world delivery) := by
  refine Handler.exec_of_wp (wp_process_unprepared world ?_ :
    (process config delivery.data).wp (sequential True) _ world) delivery.choices
    fun _ _ => trivial
  intro parsed order prepared
  obtain ⟨strategyId, traceId, accepted⟩ := prepared.accepted
  have named : lower parsed.side = "buy" ∨ lower parsed.side = "sell" := by
    rw [(parseDecisionFields_fields accepted).2.1, Decision.sideOrAction, lower_lower]
    exact side
  have guarded : fallbackGuarded config.settings delivery.data (lower parsed.side) = true := by
    rcases named with buy | sell
    · simp [fallbackGuarded, buy, flagged, live]
    · simp [fallbackGuarded, sell, flagged, live]
  have allowed := prepared.unblocked.allowed guarded
  rw [forbidden] at allowed
  cases allowed

/-! ## Live engines -/

/-- A live engine that accepts fallback decisions of up to a hundredth. -/
def liveConfig : Config where
  settings := { brokerMode := "live", alpacaPaper := false, allowFallbackTrades := true }

/-- A fallback buy of a hundredth of a bitcoin, with a Kelly fraction of cash. -/
def fallbackBuy (sizePct : ℚ) : Decision :=
  { bitcoinDecision "buy" with
    qty := .number (1 / 100)
    sizePct := .number sizePct
    llmSucceeded := some false }

def fallbackParsed : ParsedDecision where
  side := "buy"
  symbol := "BTC/USD"
  qty := 1 / 100
  price := 100
  strategyId := "momentum"
  traceId := "trace"

/-- The guard's promises hold for a fraction that buys one two-hundredth. -/
theorem fallbackSafe_small :
    FallbackSafe liveConfig.settings "BTC/USD" freshWorld
        (deliver liveConfig freshWorld (calmDelivery (fallbackBuy (5 / 1000000)))) ↔
      SizingWithinGuard liveConfig.settings fallbackParsed (5 / 1000000) freshWorld.book :=
  have accepted : parseDecisionFields "" "" (calmDelivery (fallbackBuy (5 / 1000000))).data =
      .ok fallbackParsed := by decide +kernel
  fallbackSafe_iff liveConfig freshWorld (calmDelivery (fallbackBuy (5 / 1000000)))
    (fun _ => rfl) (by decide) (by decide) accepted (Or.inl rfl) (by decide +kernel)
    flatPosition_stored (by decide +kernel)

/-- A tenth of the cash buys a hundred times what the guard let through, cut to the whole cap. -/
theorem fallback_resized :
    ¬FallbackSafe liveConfig.settings "BTC/USD" freshWorld
      (deliver liveConfig freshWorld (calmDelivery (fallbackBuy (1 / 10)))) := by
  intro safe
  have small := safe.small
    { symbol := "BTC/USD", side := "buy", qty := 1, price := 100 } (by decide +kernel)
  exact absurd small (by decide +kernel)

end TradingControl
