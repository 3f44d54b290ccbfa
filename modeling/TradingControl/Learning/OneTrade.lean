import TradingControl.Learning.OpeningFills

/-!
# Confidence and profit of one trade

The grade agent pairs confidences with profits by their positions: two columns of the rows of the
database, each without what is null in it, or two buffers that different streams fill.  A pair is
of one trade as long as both lists name the same trades in the same order.
-/

namespace TradingControl.Learning

open Python

attribute [local irreducible] lastItems

/-! ## Pairs by position -/

/-- Two lists agree, as far as both go, on items that are all kept. -/
theorem forall_zip_iff {α : Type} {keep : α → Prop} {first second : List α} :
    (∀ pair ∈ first.zip second, pair.1 = pair.2 ∧ keep pair.2) ↔
      (first <+: second ∧ ∀ item ∈ first, keep item) ∨
        (second <+: first ∧ ∀ item ∈ second, keep item) := by
  induction first generalizing second with
  | nil => simp
  | cons item first induction =>
      cases second with
      | nil => simp
      | cons other second =>
          rw [List.zip_cons_cons, List.forall_mem_cons, induction, List.cons_prefix_cons,
            List.cons_prefix_cons, List.forall_mem_cons, List.forall_mem_cons]
          constructor
          · rintro ⟨⟨same, kept⟩, ⟨within, rest⟩ | ⟨within, rest⟩⟩
            · exact Or.inl ⟨⟨same, within⟩, by rwa [show item = other from same], rest⟩
            · exact Or.inr ⟨⟨same.symm, within⟩, kept, rest⟩
          · rintro (⟨⟨rfl, within⟩, kept, rest⟩ | ⟨⟨rfl, within⟩, kept, rest⟩)
            · exact ⟨⟨rfl, kept⟩, Or.inl ⟨within, rest⟩⟩
            · exact ⟨⟨rfl, kept⟩, Or.inr ⟨within, rest⟩⟩

/-- A confidence and a profit of one trade, which has them. -/
def OneTrade {τ : Type} (confidence pnl : τ → Option ℚ) (pair : Sample τ × Sample τ) : Prop :=
  pair.1.trade = pair.2.trade ∧ confidence pair.1.trade = some pair.1.value ∧
    pnl pair.2.trade = some pair.2.value

/-- The pairs that are handed to `spearman_correlation`. -/
def Correlated.pairs {τ : Type} (samples : Correlated τ) : List (Sample τ × Sample τ) :=
  samples.1.zip samples.2

/-! ## Rows of the database -/

def columnFrom (start : ℕ) (rows : List IcRow) (field : IcRow → Option ℚ) : List (Sample ℕ) :=
  (rows.zipIdx start).filterMap fun entry => (field entry.1).map (Sample.mk entry.2)

theorem columnFrom_cons (start : ℕ) (row : IcRow) (rows : List IcRow) (field : IcRow → Option ℚ) :
    columnFrom start (row :: rows) field =
      ((field row).map (Sample.mk start)).toList ++ columnFrom (start + 1) rows field := by
  rw [columnFrom, List.zipIdx_cons, List.filterMap_cons, columnFrom]
  cases field row <;> rfl

theorem mem_columnFrom {start : ℕ} {rows : List IcRow} {field : IcRow → Option ℚ}
    {sample : Sample ℕ} (member : sample ∈ columnFrom start rows field) :
    start ≤ sample.trade ∧ (rows[sample.trade - start]?).bind field = some sample.value := by
  rw [columnFrom, List.mem_filterMap] at member
  obtain ⟨⟨row, position⟩, inside, found⟩ := member
  obtain ⟨value, present, rfl⟩ := Option.map_eq_some_iff.mp found
  have located := List.mem_zipIdx_iff_le_and_getElem?_sub.mp inside
  refine ⟨located.1, ?_⟩
  rw [located.2]
  exact present

theorem columnFrom_eq_nil_iff {start : ℕ} {rows : List IcRow} {field : IcRow → Option ℚ} :
    columnFrom start rows field = [] ↔ ∀ row ∈ rows, field row = none := by
  induction rows generalizing start with
  | nil => simp [columnFrom]
  | cons row rows induction =>
      rw [columnFrom_cons, List.append_eq_nil_iff, induction, List.forall_mem_cons]
      cases field row <;> simp

theorem length_columnFrom (start : ℕ) (rows : List IcRow) (field : IcRow → Option ℚ) :
    (columnFrom start rows field).length = rows.countP fun row => (field row).isSome := by
  induction rows generalizing start with
  | nil => rfl
  | cons row rows induction =>
      rw [columnFrom_cons, List.length_append, induction, List.countP_cons]
      cases field row with
      | none => simp
      | some value => simp [Nat.add_comm]

/-- After a row that has one of the values only, no row has the other. -/
def RowsAligned (rows : List IcRow) : Prop :=
  rows.Pairwise fun row later =>
    (row.confidence.isSome → row.pnl = none → later.pnl = none) ∧
      (row.pnl.isSome → row.confidence = none → later.confidence = none)

theorem trade_ne_of_later {start : ℕ} {rows : List IcRow} {field : IcRow → Option ℚ}
    {sample : Sample ℕ} {later : List (Sample ℕ)}
    (found : columnFrom (start + 1) rows field = sample :: later) : start ≠ sample.trade := by
  have member : sample ∈ columnFrom (start + 1) rows field := by simp [found]
  have beyond := (mem_columnFrom member).1
  omega

/-- A confidence of an earlier row is paired with no profit of a later one only if there is none. -/
theorem confidence_alone_iff (start : ℕ) (value : ℚ) (samples : List (Sample ℕ))
    (rows : List IcRow) (field : IcRow → Option ℚ) :
    (∀ pair ∈ (Sample.mk start value :: samples).zip (columnFrom (start + 1) rows field),
      pair.1.trade = pair.2.trade) ↔ ∀ row ∈ rows, field row = none := by
  rw [← columnFrom_eq_nil_iff]
  cases found : columnFrom (start + 1) rows field with
  | nil => simp
  | cons sample later => simp [trade_ne_of_later found]

theorem pnl_alone_iff (start : ℕ) (value : ℚ) (samples : List (Sample ℕ))
    (rows : List IcRow) (field : IcRow → Option ℚ) :
    (∀ pair ∈ (columnFrom (start + 1) rows field).zip (Sample.mk start value :: samples),
      pair.1.trade = pair.2.trade) ↔ ∀ row ∈ rows, field row = none := by
  rw [← columnFrom_eq_nil_iff]
  cases found : columnFrom (start + 1) rows field with
  | nil => simp
  | cons sample later => simp [(trade_ne_of_later found).symm]

theorem RowsAligned.of_no_pnl {rows : List IcRow} (missing : ∀ row ∈ rows, row.pnl = none) :
    RowsAligned rows := by
  refine List.pairwise_of_forall_mem_list fun row member later remains => ⟨?_, ?_⟩
  · exact fun _ _ => missing later remains
  · intro present
    rw [missing row member] at present
    cases present

theorem RowsAligned.of_no_confidence {rows : List IcRow}
    (missing : ∀ row ∈ rows, row.confidence = none) : RowsAligned rows := by
  refine List.pairwise_of_forall_mem_list fun row member later remains => ⟨?_, ?_⟩
  · intro present
    rw [missing row member] at present
    cases present
  · exact fun _ _ => missing later remains

/-- The columns pair samples of one row each exactly if the rows are aligned. -/
theorem columns_paired_iff (start : ℕ) (rows : List IcRow) :
    (∀ pair ∈ (columnFrom start rows IcRow.confidence).zip (columnFrom start rows IcRow.pnl),
      pair.1.trade = pair.2.trade) ↔ RowsAligned rows := by
  induction rows generalizing start with
  | nil => simp [columnFrom, RowsAligned]
  | cons row rows induction =>
      have tail := induction (start + 1)
      rw [columnFrom_cons, columnFrom_cons, RowsAligned, List.pairwise_cons]
      change _ ↔ _ ∧ RowsAligned rows
      cases confidence : row.confidence with
      | none =>
          cases pnl : row.pnl with
          | none => simpa using tail
          | some value =>
              refine (pnl_alone_iff start value _ rows IcRow.confidence).trans ?_
              constructor
              · exact fun missing => ⟨by simpa using missing, RowsAligned.of_no_confidence missing⟩
              · rintro ⟨missing, -⟩
                simpa using missing
      | some value =>
          cases pnl : row.pnl with
          | none =>
              refine (confidence_alone_iff start value _ rows IcRow.pnl).trans ?_
              constructor
              · exact fun missing => ⟨by simpa using missing, RowsAligned.of_no_pnl missing⟩
              · rintro ⟨missing, -⟩
                simpa using missing
          | some profit => simpa using tail

/-- Every row has the values of its samples. -/
theorem columns_oneTrade_iff (rows : List IcRow) :
    (∀ pair ∈ Correlated.pairs (column rows IcRow.confidence, column rows IcRow.pnl),
      OneTrade (fun row => (rows[row]?).bind IcRow.confidence)
        (fun row => (rows[row]?).bind IcRow.pnl) pair) ↔ RowsAligned rows := by
  rw [← columns_paired_iff 0]
  refine forall₂_congr fun pair member => ⟨And.left, fun same => ⟨same, ?_, ?_⟩⟩
  · exact (mem_columnFrom (List.of_mem_zip member).1).2
  · exact (mem_columnFrom (List.of_mem_zip member).2).2

/-- There are enough rows with a confidence. -/
def EnoughRows (rows : List IcRow) : Prop := 3 ≤ rows.countP fun row => row.confidence.isSome

theorem databaseSamples_eq_some_iff {rows : List IcRow} {samples : Correlated ℕ} :
    databaseSamples rows = some samples ↔
      EnoughRows rows ∧ samples = (column rows IcRow.confidence, column rows IcRow.pnl) := by
  have size : (column rows IcRow.confidence).length =
      rows.countP fun row => row.confidence.isSome := length_columnFrom 0 rows IcRow.confidence
  have within := List.countP_le_length (p := fun row => row.confidence.isSome) (l := rows)
  rw [databaseSamples, EnoughRows]
  dsimp only
  rw [size]
  split
  · simp only [reduceCtorEq, false_iff, not_and]
    omega
  · split
    · simp only [reduceCtorEq, false_iff, not_and]
      omega
    · rw [Option.some_inj, eq_comm, iff_and_self]
      omega

theorem rank_eq_none_iff {n : ℕ} {values : List ℚ} : rank n values = none ↔ n < values.length := by
  rw [rank]
  split <;> simp_all

theorem spearmanCorrelation_eq_none_iff {xs ys : List ℚ} :
    spearmanCorrelation xs ys = none ↔ 3 ≤ xs.length ∧ xs.length < ys.length := by
  have ranked : ∃ rankX, rank xs.length xs = some rankX := by
    rw [← Option.ne_none_iff_exists', ne_eq, rank_eq_none_iff]
    exact lt_irrefl _
  obtain ⟨rankX, found⟩ := ranked
  rw [← rank_eq_none_iff, spearmanCorrelation]
  dsimp only
  split
  · simp only [reduceCtorEq, false_iff, not_and]
    omega
  · rw [found]
    cases rank xs.length ys with
    | none => simpa using by omega
    | some rankY => simp

/-- The rows do not decide the coefficient: there are too few, or more profits than confidences. -/
def Undecided (rows : Option (List IcRow)) : Prop :=
  ∀ found, rows = some found → EnoughRows found →
    (found.countP fun row => row.confidence.isSome) < found.countP fun row => row.pnl.isSome

theorem columns_correlation_eq_none_iff {rows : List IcRow} (enough : EnoughRows rows) :
    Correlated.correlation (column rows IcRow.confidence, column rows IcRow.pnl) = none ↔
      (rows.countP fun row => row.confidence.isSome) < rows.countP fun row => row.pnl.isSome := by
  have confidences : (column rows IcRow.confidence).length =
      rows.countP fun row => row.confidence.isSome := length_columnFrom 0 rows IcRow.confidence
  have pnls : (column rows IcRow.pnl).length = rows.countP fun row => row.pnl.isSome :=
    length_columnFrom 0 rows IcRow.pnl
  rw [Correlated.correlation, spearmanCorrelation_eq_none_iff, List.length_map, List.length_map,
    confidences, pnls]
  exact and_iff_right enough

theorem correlation_eq_none_iff (rows : Option (List IcRow)) :
    (rows.bind databaseSamples).bind Correlated.correlation = none ↔ Undecided rows := by
  rw [Undecided, Option.bind_eq_none_iff]
  constructor
  · intro undecided found given enough
    refine (columns_correlation_eq_none_iff enough).mp (undecided _ ?_)
    rw [given, Option.bind_some, databaseSamples_eq_some_iff]
    exact ⟨enough, rfl⟩
  · intro undecided samples handed
    obtain ⟨found, given, handed⟩ := Option.bind_eq_some_iff.mp handed
    obtain ⟨enough, rfl⟩ := databaseSamples_eq_some_iff.mp handed
    exact (columns_correlation_eq_none_iff enough).mpr (undecided found given enough)

/-! ## Buffers -/

/-- One of the lists of fills begins the other, and all its fills close a round trip. -/
def FillsAligned (executions trades : List PublishedFill) : Prop :=
  (executions <+: trades ∧ ∀ fill ∈ executions, fill.closes = true) ∨
    (trades <+: executions ∧ ∀ fill ∈ trades, fill.closes = true)

/-- A closing fill alone has the profit that the agent takes it for. -/
theorem Delivery.pnlValue_eq_some_iff (delivery : Delivery) :
    delivery.fill.ctx.pnlValue = some delivery.pnl ↔ delivery.fill.closes = true := by
  cases closes : delivery.fill.closes with
  | false => simp [delivery.fill.pnlValue_opening closes]
  | true =>
      have realized := delivery.fill.pnlValue_closing closes
      refine iff_of_true ?_ rfl
      cases delivery with
      | execution fill | performance fill =>
          rw [Delivery.fill] at realized
          rw [Delivery.fill, Delivery.pnl, realized]
          rfl
      | completed fill closes => exact realized

theorem buffers_oneTrade_iff (executions trades : List Delivery) :
    (∀ pair ∈ (executions.map Delivery.confidenceSample).zip (trades.map Delivery.pnlSample),
      OneTrade (fun fill => some fill.ctx.signalConfidence) (fun fill => fill.ctx.pnlValue) pair) ↔
        FillsAligned (executions.map Delivery.fill) (trades.map Delivery.fill) := by
  rw [FillsAligned, ← forall_zip_iff, List.zip_map, List.zip_map, List.forall_mem_map,
    List.forall_mem_map]
  refine forall₂_congr fun pair member => and_congr_right fun _ => ?_
  exact (and_iff_right rfl).trans pair.2.pnlValue_eq_some_iff

def recentExecutions (lookback : ℕ) (deliveries : List Delivery) : List PublishedFill :=
  (lastItems (windowSize lookback) (executed deliveries)).map Delivery.fill

def recentTrades (lookback : ℕ) (deliveries : List Delivery) : List PublishedFill :=
  (lastItems (windowSize lookback) (graded id [] deliveries)).map Delivery.fill

theorem bufferSamples_eq_some_iff {agent : GradeAgent} {lookback : ℕ}
    {samples : Correlated PublishedFill} :
    agent.bufferSamples lookback = some samples ↔
      (3 ≤ (recent lookback agent.confidenceBuffer).length ∧
        3 ≤ (recent lookback agent.pnlBuffer).length) ∧
      samples = List.unzip
        ((recent lookback agent.confidenceBuffer).zip (recent lookback agent.pnlBuffer)) := by
  rw [GradeAgent.bufferSamples, List.unzip_eq_map, ← Nat.le_min, ← List.length_zip]
  split
  · simp only [reduceCtorEq, false_iff, not_and]
    omega
  · rw [Option.some_inj, eq_comm, iff_and_self]
    omega

/-! ## The information coefficient -/

/-- All that `_information_coefficient` hands to be correlated pairs the confidence of a trade with
its realized PnL. -/
def CorrelatesOneTrade (agent : GradeAgent) (lookback : ℕ) (rows : Option (List IcRow)) : Prop :=
  (∀ found samples, rows = some found → databaseSamples found = some samples →
    ∀ pair ∈ samples.pairs, OneTrade (fun row => (found[row]?).bind IcRow.confidence)
      (fun row => (found[row]?).bind IcRow.pnl) pair) ∧
  ((rows.bind databaseSamples).bind Correlated.correlation = none →
    ∀ samples, agent.bufferSamples lookback = some samples →
      ∀ pair ∈ samples.pairs, OneTrade (fun fill => some fill.ctx.signalConfidence)
        (fun fill => fill.ctx.pnlValue) pair)

/-- The coefficient correlates each trade with itself exactly if the rows are aligned, where there
are enough of them, and, unless these decide it, so are the fills in the windows of the two streams,
where both have enough. -/
theorem correlatesOneTrade_iff (deliveries : List Delivery) (lookback : ℕ)
    (rows : Option (List IcRow)) :
    CorrelatesOneTrade (GradeAgent.after deliveries) lookback rows ↔
      (∀ found, rows = some found → EnoughRows found → RowsAligned found) ∧
      (Undecided rows →
        3 ≤ (recentExecutions lookback deliveries).length →
        3 ≤ (recentTrades lookback deliveries).length →
        FillsAligned (recentExecutions lookback deliveries)
          (recentTrades lookback deliveries)) := by
  refine and_congr ?_ ?_
  · refine forall_congr' fun found => ?_
    constructor
    · intro paired given enough
      rw [← columns_oneTrade_iff]
      exact paired _ given (databaseSamples_eq_some_iff.mpr ⟨enough, rfl⟩)
    · intro aligned samples given handed
      obtain ⟨enough, rfl⟩ := databaseSamples_eq_some_iff.mp handed
      exact (columns_oneTrade_iff found).mpr (aligned given enough)
  · rw [correlation_eq_none_iff, recentExecutions, recentTrades, ← buffers_oneTrade_iff,
      List.length_map, List.length_map]
    refine imp_congr_right fun _ => ?_
    simp only [bufferSamples_eq_some_iff, GradeAgent.recent_confidenceBuffer,
      GradeAgent.recent_pnlBuffer, List.length_map]
    constructor
    · intro paired executions trades
      have pairs := paired _ ⟨⟨executions, trades⟩, rfl⟩
      rwa [Correlated.pairs, List.zip_unzip] at pairs
    · rintro paired samples ⟨⟨executions, trades⟩, rfl⟩
      rw [Correlated.pairs, List.zip_unzip]
      exact paired executions trades

/-- The last fill has been executed, its trade has not arrived yet: each of the three confidences is
paired with the profit of the fill before. -/
theorem confidence_of_next_trade :
    ¬CorrelatesOneTrade (GradeAgent.after (roundTrips.take 8)) 3 none := by
  rintro ⟨-, paired⟩
  have handed := bufferSamples_eq_some_iff.mpr
    ⟨(by decide +kernel : 3 ≤ (recent 3
        (GradeAgent.after (roundTrips.take 8)).confidenceBuffer).length ∧
      3 ≤ (recent 3 (GradeAgent.after (roundTrips.take 8)).pnlBuffer).length), rfl⟩
  have pairs := paired rfl _ handed
  rw [Correlated.pairs, List.zip_unzip] at pairs
  have orders : ∀ pair ∈ (recent 3 (GradeAgent.after (roundTrips.take 8)).confidenceBuffer).zip
      (recent 3 (GradeAgent.after (roundTrips.take 8)).pnlBuffer),
      pair.1.trade.ctx.orderId = pair.2.trade.ctx.orderId :=
    fun pair member => congrArg (fun fill => fill.ctx.orderId) (pairs pair member).1
  revert orders
  decide +kernel

end TradingControl.Learning
