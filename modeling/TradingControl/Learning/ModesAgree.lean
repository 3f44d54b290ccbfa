import TradingControl.Learning.Metrics
import TradingControl.Python.Window

/-!
# The two modes of the learning metrics

Memory mode feeds the newest evaluation first, database mode the oldest.  Only the score trend
depends on the order, and it turns round with it.
-/

namespace TradingControl.Learning

open Python

-- the window lemmas say all there is to know, and five hundred is too far to unfold
attribute [local irreducible] lastItems

/-! ## Metrics that do not depend on the order -/

section Order

variable {first second : List ℚ} (same : first.Perm second)

include same

theorem average_perm : average first = average second := by
  rw [average, average, same.sum_eq, same.length_eq]

theorem variance_perm (mean : ℚ) : variance mean first = variance mean second := by
  rw [variance, variance, (same.map _).sum_eq, same.length_eq]

theorem deviation_perm (sqrt : ℚ → ℚ) (mean : ℚ) :
    deviation sqrt mean first = deviation sqrt mean second := by
  rw [deviation, deviation, variance_perm same]

omit same in
theorem varied_iff (values : List ℚ) :
    varied values = true ↔ ∃ one ∈ values, ∃ other ∈ values, one ≠ other := by
  cases values with
  | nil => simp [varied]
  | cons head values =>
      rw [varied, List.any_eq_true]
      constructor
      · rintro ⟨other, member, differs⟩
        exact ⟨other, member, head, List.mem_cons_self, by simpa using differs⟩
      · rintro ⟨one, oneMember, other, otherMember, differ⟩
        by_cases isHead : one = head
        · exact ⟨other, otherMember, by simpa [← isHead] using differ.symm⟩
        · exact ⟨one, oneMember, by simpa using isHead⟩

theorem varied_perm : varied first = varied second := by
  rw [Bool.eq_iff_iff, varied_iff, varied_iff]
  simp only [same.mem_iff]

theorem sharpe_perm (sqrt : ℚ → ℚ) : sharpe sqrt first = sharpe sqrt second := by
  simp only [sharpe, average_perm same, deviation_perm same, varied_perm same, same.length_eq]

theorem consistency_perm (sqrt : ℚ → ℚ) : consistency sqrt first = consistency sqrt second := by
  simp only [consistency, average_perm same, deviation_perm same, same.length_eq]

end Order

/-! ## The trend -/

/-- What the slope compares with its bounds, in terms of the scores alone. -/
theorem slope_eq (scores : List ℚ) (several : 2 ≤ scores.length) :
    slope scores =
      6 * Series.rise scores / (scores.length * ((scores.length : ℚ) ^ 2 - 1)) := by
  have many : (2 : ℚ) ≤ scores.length := by exact_mod_cast several
  have square : (0 : ℚ) < (scores.length : ℚ) ^ 2 - 1 := by nlinarith
  have length : (0 : ℚ) < scores.length := by linarith
  have positive : (0 : ℚ) < Series.spread scores.length := by
    rw [Series.spread_eq]
    positivity
  rw [slope, if_pos positive, Series.leverage_middle, Series.spread_eq]
  field_simp
  ring

theorem slope_reverse (scores : List ℚ) (several : 2 ≤ scores.length) :
    slope scores.reverse = -slope scores := by
  rw [slope_eq _ (by simpa using several), slope_eq _ several, Series.rise_reverse,
    List.length_reverse]
  ring

/-- Too few scores for a trend, or scores that rise and fall about as much: over all pairs, the
later less the earlier ones. -/
def LevelScores (scores : List ℚ) : Prop :=
  scores.length < 5 ∨
    |Series.rise scores| ≤ scores.length * ((scores.length : ℚ) ^ 2 - 1) / 1200

instance (scores : List ℚ) : Decidable (LevelScores scores) := by
  unfold LevelScores
  infer_instance

theorem abs_slope_le_iff (scores : List ℚ) (several : 2 ≤ scores.length) :
    |slope scores| ≤ 1 / 200 ↔
      |Series.rise scores| ≤ scores.length * ((scores.length : ℚ) ^ 2 - 1) / 1200 := by
  have many : (2 : ℚ) ≤ scores.length := by exact_mod_cast several
  have square : (0 : ℚ) < (scores.length : ℚ) ^ 2 - 1 := by nlinarith
  have denominator : (0 : ℚ) < scores.length * ((scores.length : ℚ) ^ 2 - 1) := by
    have length : (0 : ℚ) < scores.length := by linarith
    positivity
  rw [slope_eq _ several, abs_div, abs_of_pos denominator, div_le_iff₀ denominator, abs_mul,
    abs_of_pos (by norm_num : (0 : ℚ) < 6)]
  constructor <;> intro bound <;> linarith

/-- Read backwards, the trend is the same only where there is none. -/
theorem scoreTrend_reverse_iff (scores : List ℚ) :
    scoreTrend scores.reverse = scoreTrend scores ↔ LevelScores scores := by
  by_cases enough : 5 ≤ scores.length
  · rw [LevelScores, ← abs_slope_le_iff scores (by omega), scoreTrend, scoreTrend,
      List.length_reverse, if_pos enough, if_pos enough, slope_reverse scores (by omega), abs_le,
      or_iff_right (by omega)]
    rcases lt_trichotomy (slope scores) 0 with falling | level | rising
    · by_cases steep : slope scores < -(1 / 200)
      · rw [if_pos (by linarith), if_neg (by linarith), if_pos steep]
        exact iff_of_false (by decide) fun bounds => by linarith [bounds.1]
      · rw [if_neg (by linarith), if_neg (by linarith), if_neg (by linarith), if_neg steep]
        exact iff_of_true rfl ⟨by linarith, by linarith⟩
    · rw [level]
      norm_num
    · by_cases steep : 1 / 200 < slope scores
      · rw [if_neg (by linarith), if_pos (by linarith), if_pos steep]
        exact iff_of_false (by decide) fun bounds => by linarith [bounds.2]
      · rw [if_neg (by linarith), if_neg (by linarith), if_neg steep, if_neg (by linarith)]
        exact iff_of_true rfl ⟨by linarith, by linarith⟩
  · rw [scoreTrend, scoreTrend, List.length_reverse, if_neg enough, if_neg enough]
    exact iff_of_true rfl (.inl (by omega))

/-! ## What each mode reads -/

/-- The evaluations recorded one after another, each with the time it is recorded at. -/
def InMemoryStore.recordAll (store : InMemoryStore) (recorded : List (ℚ × TradeEvaluation)) :
    InMemoryStore :=
  recorded.foldl (fun store entry => store.addTradeEvaluation entry.1 entry.2) store

/-- The entry that memory mode keeps of an evaluation. -/
def stamped (entry : ℚ × TradeEvaluation) : TradeEvaluation :=
  { entry.2 with createdAt := some (entry.2.createdAt.getD entry.1) }

theorem gradeHistory_recordAll (store : InMemoryStore) (recorded : List (ℚ × TradeEvaluation)) :
    (store.recordAll recorded).gradeHistory = store.gradeHistory := by
  induction recorded generalizing store with
  | nil => rfl
  | cons entry recorded induction => exact induction (store.addTradeEvaluation entry.1 entry.2)

theorem tradeEvaluations_recordAll (store : InMemoryStore)
    (recorded : List (ℚ × TradeEvaluation)) :
    (store.recordAll recorded).tradeEvaluations =
      recorded.foldl (fun kept entry => lastItems 500 (kept ++ [stamped entry]))
        store.tradeEvaluations := by
  induction recorded generalizing store with
  | nil => rfl
  | cons entry recorded induction => exact induction (store.addTradeEvaluation entry.1 entry.2)

/-- Two hundred evaluations are all there, the newest first. -/
theorem getTradeEvaluations_recordAll (store : InMemoryStore) (fresh : store.tradeEvaluations = [])
    (recorded : List (ℚ × TradeEvaluation)) (few : recorded.length ≤ 200) :
    (store.recordAll recorded).getTradeEvaluations 200 = (recorded.map stamped).reverse := by
  have kept := foldl_lastItems 500 stamped recorded []
  rw [lastItems_nil, List.nil_append] at kept
  rw [InMemoryStore.getTradeEvaluations, tradeEvaluations_recordAll, fresh, kept,
    lastItems_lastItems (by omega), lastItems_of_length_le (by simpa using few)]

/-- `ORDER BY created_at` finds the one order that rows of distinct times have. -/
theorem oldest_eq {α : Type} (createdAt : α → ℚ) {rows inOrder : List α}
    (same : rows.Perm inOrder)
    (ordered : inOrder.Pairwise fun first second => createdAt first < createdAt second)
    (few : inOrder.length ≤ 500) : oldest createdAt rows = inOrder := by
  have distinct : (inOrder.map createdAt).Nodup :=
    List.pairwise_map.mpr (ordered.imp fun before => before.ne)
  have sorted : (rows.insertionSort fun first second => createdAt first ≤ createdAt second) =
      inOrder := by
    have total : Std.Total fun first second : α => createdAt first ≤ createdAt second :=
      ⟨fun first second => le_total _ _⟩
    have transitive : IsTrans α fun first second => createdAt first ≤ createdAt second :=
      ⟨fun _ _ _ before after => before.trans after⟩
    have reordered := (List.perm_insertionSort
      (fun first second => createdAt first ≤ createdAt second) rows).trans same
    refine reordered.eq_of_pairwise (fun first second firstIn secondIn before after => ?_)
      (List.pairwise_insertionSort _ rows) (ordered.imp fun before => before.le)
    exact List.inj_on_of_nodup_map distinct (reordered.subset firstIn) secondIn
      (le_antisymm before after)
  rw [oldest, sorted, List.take_of_length_le few]

/-- The metrics see no difference between a missing number and zero. -/
theorem computeLearningMetrics_map {α : Type} (sqrt : ℚ → ℚ) (first second : α → TradeEvaluation)
    (pnl : ∀ item, (first item).pnl.getD 0 = (second item).pnl.getD 0)
    (pnlPercent : ∀ item, (first item).pnlPercent.getD 0 = (second item).pnlPercent.getD 0)
    (overallScore : ∀ item, (first item).overallScore.getD 0 = (second item).overallScore.getD 0)
    (items : List α) :
    computeLearningMetrics sqrt (items.map first) =
      computeLearningMetrics sqrt (items.map second) := by
  simp only [computeLearningMetrics, List.isEmpty_map, List.map_map, Function.comp_def, pnl,
    pnlPercent, overallScore, List.length_map]

/-! ## Agreement -/

/-- The six metrics are the same. -/
structure SameMetrics (memory database : LearningMetrics) : Prop where
  winRate : memory.winRate = database.winRate
  avgReturn : memory.avgReturn = database.avgReturn
  maxDrawdown : memory.maxDrawdown = database.maxDrawdown
  scoreTrend : memory.scoreTrend = database.scoreTrend
  sharpeRatio : memory.sharpeRatio = database.sharpeRatio
  consistency : memory.consistency = database.consistency

/-- The metrics of a sequence and of its reverse differ in the trend alone. -/
theorem sameMetrics_reverse_iff (sqrt : ℚ → ℚ) (evaluations : List TradeEvaluation) :
    SameMetrics (computeLearningMetrics sqrt evaluations.reverse)
        (computeLearningMetrics sqrt evaluations) ↔
      LevelScores (evaluations.map (·.overallScore.getD 0)) := by
  rw [← scoreTrend_reverse_iff, ← List.map_reverse]
  by_cases empty : evaluations = []
  · rw [empty]
    exact iff_of_true ⟨rfl, rfl, rfl, rfl, rfl, rfl⟩ rfl
  have backwards := List.reverse_perm evaluations
  have full : evaluations.isEmpty = false := by simpa using empty
  have fullReverse : evaluations.reverse.isEmpty = false := by simpa using empty
  simp only [computeLearningMetrics, full, fullReverse, Bool.false_eq_true, if_false]
  constructor
  · exact fun same => same.scoreTrend
  · intro trend
    refine ⟨?_, ?_, ?_, trend, ?_, ?_⟩
    · simp only [(backwards.map _).countP_eq, backwards.length_eq]
    · simp only [average_perm (backwards.map _)]
    · simp only [List.map_reverse, Series.maxDrawdown_reverse]
    · simp only [sharpe_perm (backwards.map _)]
    · simp only [consistency_perm (backwards.map _)]

/-- Evaluations recorded in order and read back in both modes. -/
structure RecordedInBoth (store : InMemoryStore) (recorded : List (ℚ × TradeEvaluation))
    (database : Database) : Prop where
  /-- The store held no evaluation before. -/
  fresh : store.tradeEvaluations = []
  few : recorded.length ≤ 200
  ordered : recorded.Pairwise fun first second => first.1 < second.1
  rows : database.tradeEvaluations.Perm (recorded.map fun entry => entry.2.row entry.1)
  /-- With nothing evaluated, both modes show grades, which are then the same too. -/
  grades : recorded = [] →
    (store.gradeHistory.filter GradeEntry.counts).map GradeEntry.raw = database.overallScores

/-- Five trades of one percent, each scored better than the one before. -/
def improving : List (ℚ × TradeEvaluation) :=
  [1, 2, 3, 4, 5].map fun place : ℚ =>
    (place, { pnl := some 10, pnlPercent := some 1, overallScore := some (place / 5) })

/-- The table that holds these rows. -/
def improvingTable (recorded : List (ℚ × TradeEvaluation)) : Database where
  tradeEvaluations := recorded.map fun entry => entry.2.row entry.1

theorem improving_recorded : RecordedInBoth {} improving (improvingTable improving) where
  fresh := rfl
  few := by decide
  ordered := by decide +kernel
  rows := .rfl
  grades := by simp [improving]

end TradingControl.Learning
