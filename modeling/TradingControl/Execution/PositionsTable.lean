import TradingControl.Execution.LongOnly

/-!
# The positions table and the broker

The table keeps one row for each strategy and symbol, the broker one position for each symbol.  A
fill changes both by the same signed quantity as long as the strategy's own row can record it: a
sell of what another strategy bought opens a short row, and a remainder below the dust limit is
stored as flat, which the next fill reads as negative.
-/

namespace TradingControl

open Effects Python

/-! ## Sums over rows -/

/-- Signed quantity that rows hold in a symbol. -/
def signedTotal (symbol : String) (rows : List PositionRow) : ℚ :=
  (rows.map fun row => if row.symbol = symbol then row.signedQty else 0).sum

theorem signedTotal_append (symbol : String) (rows : List PositionRow) (row : PositionRow) :
    signedTotal symbol (rows ++ [row]) =
      signedTotal symbol rows + if row.symbol = symbol then row.signedQty else 0 := by
  simp [signedTotal]

theorem signedTotal_update {rows : List PositionRow} (unique : (rows.map PositionRow.id).Nodup)
    {row : PositionRow} (member : row ∈ rows) {change : PositionRow → PositionRow}
    (sameSymbol : ∀ row, (change row).symbol = row.symbol) (symbol : String) :
    signedTotal symbol (rows.map fun other => if other.id = row.id then change other else other) =
      signedTotal symbol rows +
        if row.symbol = symbol then (change row).signedQty - row.signedQty else 0 := by
  induction rows with
  | nil => cases member
  | cons head tail induction =>
      rw [List.map_cons, List.nodup_cons] at unique
      simp only [signedTotal, List.map_cons, List.sum_cons] at induction ⊢
      rcases List.mem_cons.mp member with rfl | later
      · -- no other row has its id
        have untouched : tail.map (fun other => if other.id = row.id then change other else other) =
            tail := by
          refine (List.map_congr_left fun other later => ?_).trans (List.map_id tail)
          refine if_neg fun same => unique.1 ?_
          exact same ▸ List.mem_map_of_mem later
        rw [untouched, if_pos rfl, sameSymbol]
        split
        · ring
        · ring
      · have different : head.id ≠ row.id := by
          intro same
          exact unique.1 (same ▸ List.mem_map_of_mem later)
        rw [if_neg different, induction unique.2 later]
        ring

/-! ## What a row records -/

/-- Rows that the table may hold: every row has its own id, drawn before, and none is short. -/
structure SoundRows (nextId : ℕ) (rows : List PositionRow) : Prop where
  unique : (rows.map PositionRow.id).Nodup
  drawn : ∀ row ∈ rows, row.id < nextId
  noShort : ∀ row ∈ rows, row.side ≠ "short"

namespace SoundRows

variable {nextId later : ℕ} {rows : List PositionRow}

theorem append (sound : SoundRows nextId rows) {row : PositionRow} (grows : nextId ≤ later)
    (fresh : nextId ≤ row.id) (drawn : row.id < later) (side : row.side ≠ "short") :
    SoundRows later (rows ++ [row]) := by
  have member : ∀ {property : PositionRow → Prop}, (∀ held ∈ rows, property held) →
      property row → ∀ held ∈ rows ++ [row], property held := by
    intro property before new held either
    rcases List.mem_append.mp either with earlier | last
    · exact before held earlier
    · exact List.mem_singleton.mp last ▸ new
  refine ⟨?_, member (fun held earlier => (sound.drawn held earlier).trans_le grows) drawn,
    member sound.noShort side⟩
  rw [List.map_append, List.nodup_append]
  refine ⟨sound.unique, by simp, fun id earlier other last same => ?_⟩
  obtain ⟨held, before, rfl⟩ := List.mem_map.mp earlier
  obtain rfl : other = row.id := by simpa using last
  exact absurd (sound.drawn held before) (not_lt.mpr (same ▸ fresh))

theorem update (sound : SoundRows nextId rows) {id : ℕ} {change : PositionRow → PositionRow}
    (grows : nextId ≤ later) (sameId : ∀ row, (change row).id = row.id)
    (side : ∀ row, (change row).side ≠ "short") :
    SoundRows later (rows.map fun row => if row.id = id then change row else row) := by
  have identified : ∀ row : PositionRow, (if row.id = id then change row else row).id = row.id := by
    intro row
    split
    · exact sameId row
    · rfl
  constructor
  · rw [List.map_map]
    simpa only [Function.comp_def, identified] using sound.unique
  · intro changed member
    obtain ⟨row, held, rfl⟩ := List.mem_map.mp member
    rw [identified]
    exact (sound.drawn row held).trans_le grows
  · intro changed member
    obtain ⟨row, held, rfl⟩ := List.mem_map.mp member
    split
    · exact side row
    · exact sound.noShort row held

end SoundRows

/-- A signed quantity that a row stores without a short side and reads back as it was. -/
def Recordable (signed : ℚ) : Prop := dust ≤ signed ∨ -dust < signed ∧ signed ≤ 0

theorem sideOf_long {signed : ℚ} (long : dust ≤ signed) : PositionRow.sideOf signed = "long" := by
  have positive : 0 < signed := lt_of_lt_of_le (by norm_num [dust]) long
  rw [PositionRow.sideOf, abs_of_pos positive, if_neg (not_lt.mpr long), if_pos positive]

theorem sideOf_flat {signed : ℚ} (above : -dust < signed) (below : signed ≤ 0) :
    PositionRow.sideOf signed = "flat" := by
  rw [PositionRow.sideOf, abs_of_nonpos below, if_pos (by linarith)]

theorem Recordable.side_ne_short {signed : ℚ} (recordable : Recordable signed) :
    PositionRow.sideOf signed ≠ "short" := by
  rcases recordable with long | ⟨above, below⟩
  · rw [sideOf_long long]
    decide
  · rw [sideOf_flat above below]
    decide

theorem Recordable.signedQty {signed : ℚ} (recordable : Recordable signed) {row : PositionRow}
    (side : row.side = PositionRow.sideOf signed) (qty : row.qty = |signed|) :
    row.signedQty = signed := by
  have named : isBuy (lower "long") = true ∧ isBuy (lower "flat") = false := by decide
  rw [PositionRow.signedQty, side, qty]
  rcases recordable with long | ⟨above, below⟩
  · have nonneg : 0 ≤ signed := le_trans (by norm_num [dust]) long
    rw [sideOf_long long, if_pos named.1, abs_of_nonneg nonneg]
  · rw [sideOf_flat above below, if_neg (by simp [named.2]), abs_of_nonpos below, neg_neg]

/-- The strategy's own row can record a fill: there is none and the fill is a buy, or what the row
and the fill add up to is recordable. -/
def RowRecords (db : Database) (order : Order) (qty : ℚ) : Prop :=
  match db.findPosition order.strategyId order.symbol with
  | none => isBuy order.side = true
  | some row => Recordable (row.signedQty + signedFill order.side qty)

/-- A recorded fill keeps the table sound and moves the sum of its symbol only, by the fill. -/
theorem CommittedRows.sound {config : Config} {order : Order} {qty fillPrice : ℚ}
    {before after : World} (rows : CommittedRows config order qty fillPrice before after)
    (positive : 0 < qty) (records : RowRecords before.db order qty)
    (sound : SoundRows before.db.nextId before.db.positions) :
    SoundRows after.db.nextId after.db.positions ∧ ∀ symbol, signedTotal symbol after.db.positions =
      signedTotal symbol before.db.positions +
        if order.symbol = symbol then signedFill order.side qty else 0 := by
  obtain ⟨⟨id, avgCost, fresh, drawn, positions⟩, -, nextId⟩ := rows
  rw [RowRecords] at records
  cases found : before.db.findPosition order.strategyId order.symbol with
  | none =>
      rw [found] at positions records
      have filled : signedFill order.side qty = qty := if_pos records
      rw [positions, upsertWrite, Write.onPositions]
      refine ⟨sound.append nextId fresh (drawn found) ?_, fun symbol => ?_⟩
      · simp [PositionRow.opened, filled, positive.le]
      · have named : isBuy (lower "long") = true := by decide
        rw [signedTotal_append]
        simp [PositionRow.opened, PositionRow.signedQty, filled, positive.le, named,
          abs_of_pos positive]
  | some row =>
      rw [found] at positions records
      have held : row ∈ before.db.positions := List.mem_of_find?_eq_some found
      have key : row.strategyId = order.strategyId ∧ row.symbol = order.symbol := by
        simpa using List.find?_some found
      rw [positions, upsertWrite, PositionRow.updated, Write.onPositions]
      refine ⟨sound.update nextId (fun _ => rfl) fun _ => records.side_ne_short, fun symbol => ?_⟩
      refine (signedTotal_update sound.unique held ?_ symbol).trans ?_
      · exact fun _ => rfl
      rw [key.2, records.signedQty rfl rfl, add_sub_cancel_left]

/-! ## Table and broker -/

/-- The rows of every symbol add up to what the broker holds in it. -/
structure World.Mirrors (world : World) : Prop where
  sound : SoundRows world.db.nextId world.db.positions
  total : ∀ symbol, signedTotal symbol world.db.positions = (world.book.position symbol).qty

/-- The delivery commits the rows of a fill: the audit log gains its entry. -/
def CommitsFill (config : Config) (world : World) (delivery : Delivery) : Prop :=
  (deliver config world delivery).db.auditLog ≠ world.db.auditLog

instance (config : Config) (world : World) (delivery : Delivery) :
    Decidable (CommitsFill config world delivery) :=
  inferInstanceAs (Decidable (_ ≠ _))

/-- Whatever the decision is sized and clamped to, the row of its strategy can record it. -/
def StrategyRecords (config : Config) (world : World) (delivery : Delivery) : Prop :=
  ∀ parsed order qty, Prepared True config delivery.data world.book parsed order →
    admission config.settings order.side order.qty (world.book.position order.symbol) =
      .submit qty →
    RowRecords world.db order qty

theorem admitted_pos {settings : Settings} {side : String} {sized qty : ℚ} {prior : Position}
    (positive : 0 < sized) (admitted : admission settings side sized prior = .submit qty) :
    0 < qty := by
  cases buy : isBuy side with
  | true => exact (admission_buy buy admitted).1
  | false =>
      cases sell : isSell side with
      | true =>
          obtain ⟨⟨-, held⟩, taken⟩ := admission_sell sell admitted
          rw [taken]
          exact lt_min positive held
      | false => rwa [admission_other buy sell admitted]

/-- A committed fill that its strategy's row records keeps table and broker together. -/
theorem mirrors_deliver {config : Config} {world : World} {delivery : Delivery}
    (commits : CommitsFill config world delivery) (records : StrategyRecords config world delivery)
    (mirrors : world.Mirrors) : (deliver config world delivery).Mirrors := by
  have trades : Trades True config delivery.data world (deliver config world delivery) :=
    trades_of_process config delivery world fun _ _ => trivial
  cases trades with
  | uncommitted executed => exact absurd executed.rows.auditLog commits
  | @committed order qty slippage fill rows =>
      obtain ⟨⟨parsed, prepared⟩, admitted, ⟨now, book⟩, -⟩ := fill
      have positive := admitted_pos prepared.qty_pos admitted
      obtain ⟨sound, total⟩ :=
        rows.sound positive (records parsed order qty prepared admitted) mirrors.sound
      refine ⟨sound, fun symbol => ?_⟩
      rw [total, book, mirrors.total]
      by_cases same : order.symbol = symbol
      · subst same
        rw [if_pos rfl, Book.fill_position_self, Position.fill_qty, prepared.direction_eq,
          signedFill]
        split
        · rw [mul_one]
        · rw [mul_neg_one]
      · rw [if_neg same, Book.fill_position_other _ (Ne.symm same), add_zero]

/-- World after one bitcoin bought for a strategy. -/
def boughtWorld : World := deliver {} freshWorld (calmDelivery (bitcoinDecision "buy"))

end TradingControl
