import Mathlib.Algebra.BigOperators.Group.List.Basic
import Mathlib.Algebra.Order.Group.Defs
import Mathlib.Algebra.Order.Ring.Rat
import Mathlib.Data.List.Induction
import Mathlib.Order.Bounds.Basic
import Mathlib.Tactic.FieldSimp
import Mathlib.Tactic.Linarith
import Mathlib.Tactic.Order
import Mathlib.Tactic.Ring

/-!
# A series read backwards

The largest fall of a running total is the largest loss of any stretch of consecutive terms, so a
series and its reverse have the same one.  The least-squares slope changes its sign.
-/

namespace Series

/-! ## Drawdown -/

section Drawdown

variable {α : Type} [AddCommGroup α]

/-- What the stretches of consecutive terms lose. -/
def stretchLosses (series : List α) : Set α :=
  {loss | ∃ stretch, stretch <:+: series ∧ loss = -stretch.sum}

/-- What the stretches at the end of the series lose. -/
def endLosses (series : List α) : Set α :=
  {loss | ∃ stretch, stretch <:+ series ∧ loss = -stretch.sum}

theorem endLosses_concat (series : List α) (term : α) :
    endLosses (series ++ [term]) = insert 0 ((fun loss => loss - term) '' endLosses series) := by
  ext loss
  simp only [endLosses, List.suffix_concat_iff, Set.mem_ofPred_eq, Set.mem_insert_iff,
    Set.mem_image]
  constructor
  · rintro ⟨stretch, rfl | ⟨earlier, rfl, suffix⟩, rfl⟩
    · exact .inl (by simp)
    · refine .inr ⟨-earlier.sum, ⟨earlier, suffix, rfl⟩, ?_⟩
      rw [List.sum_append, List.sum_singleton, neg_add, sub_eq_add_neg]
  · rintro (rfl | ⟨_, ⟨earlier, suffix, rfl⟩, rfl⟩)
    · exact ⟨[], .inl rfl, by simp⟩
    · refine ⟨earlier ++ [term], .inr ⟨earlier, rfl, suffix⟩, ?_⟩
      rw [List.sum_append, List.sum_singleton, neg_add, sub_eq_add_neg]

theorem stretchLosses_concat (series : List α) (term : α) :
    stretchLosses (series ++ [term]) = endLosses (series ++ [term]) ∪ stretchLosses series := by
  ext loss
  simp only [stretchLosses, endLosses, List.infix_concat_iff, Set.mem_ofPred_eq, Set.mem_union]
  constructor
  · rintro ⟨stretch, atEnd | within, lost⟩
    · exact .inl ⟨stretch, atEnd, lost⟩
    · exact .inr ⟨stretch, within, lost⟩
  · rintro (⟨stretch, atEnd, lost⟩ | ⟨stretch, within, lost⟩)
    · exact ⟨stretch, .inl atEnd, lost⟩
    · exact ⟨stretch, .inr within, lost⟩

theorem stretchLosses_reverse (series : List α) :
    stretchLosses series.reverse = stretchLosses series := by
  have backwards : ∀ series : List α, stretchLosses series ⊆ stretchLosses series.reverse := by
    rintro series _ ⟨stretch, within, rfl⟩
    exact ⟨stretch.reverse, List.reverse_infix.mpr within, by rw [List.sum_reverse]⟩
  refine Set.Subset.antisymm ?_ (backwards series)
  simpa using backwards series.reverse

variable [LinearOrder α]

/-- A running total, the highest value it had, and the largest fall below it. -/
structure Walk (α : Type) where
  cumulative : α
  peak : α
  maxDrawdown : α

/-- The walk at zero. -/
def Walk.start : Walk α := ⟨0, 0, 0⟩

def Walk.step (walk : Walk α) (term : α) : Walk α :=
  let cumulative := walk.cumulative + term
  let peak := if walk.peak < cumulative then cumulative else walk.peak
  let fall := peak - cumulative
  ⟨cumulative, peak, if walk.maxDrawdown < fall then fall else walk.maxDrawdown⟩

def walk (series : List α) : Walk α := series.foldl Walk.step Walk.start

/-- The largest fall below the highest running total so far. -/
def maxDrawdown (series : List α) : α := (walk series).maxDrawdown

theorem walk_concat (series : List α) (term : α) :
    walk (series ++ [term]) = (walk series).step term := by
  simp [walk]

variable [IsOrderedAddMonoid α]

/-- The fall at the end is the largest loss of a stretch that ends there. -/
theorem isGreatest_fall (series : List α) :
    IsGreatest (endLosses series) ((walk series).peak - (walk series).cumulative) := by
  induction series using List.reverseRecOn with
  | nil => exact ⟨⟨[], List.suffix_rfl, by simp [walk, Walk.start]⟩, by
      rintro _ ⟨stretch, suffix, rfl⟩
      simp [List.suffix_nil.mp suffix, walk, Walk.start]⟩
  | append_singleton series term induction =>
      rw [walk_concat, endLosses_concat]
      have shifted : IsGreatest ((fun loss => loss - term) '' endLosses series)
          ((walk series).peak - (walk series).cumulative - term) :=
        ⟨Set.mem_image_of_mem _ induction.1, by
          rintro _ ⟨loss, lost, rfl⟩
          exact sub_le_sub_right (induction.2 lost) term⟩
      have extended := shifted.insert 0
      have stepped : max 0 ((walk series).peak - (walk series).cumulative - term) =
          ((walk series).step term).peak - ((walk series).step term).cumulative := by
        simp only [Walk.step]
        by_cases higher : (walk series).peak < (walk series).cumulative + term
        · rw [if_pos higher, sub_self, max_eq_left]
          rw [sub_sub]
          exact sub_nonpos.mpr higher.le
        · rw [if_neg higher, max_eq_right, sub_sub]
          rw [sub_sub]
          exact sub_nonneg.mpr (not_lt.mp higher)
      rwa [stepped] at extended

theorem isGreatest_maxDrawdown (series : List α) :
    IsGreatest (stretchLosses series) (maxDrawdown series) := by
  induction series using List.reverseRecOn with
  | nil => exact ⟨⟨[], List.infix_rfl, by simp [maxDrawdown, walk, Walk.start]⟩, by
      rintro _ ⟨stretch, within, rfl⟩
      simp [List.infix_nil.mp within, maxDrawdown, walk, Walk.start]⟩
  | append_singleton series term induction =>
      have joined := (isGreatest_fall (series ++ [term])).union induction
      rw [← stretchLosses_concat] at joined
      have stepped : maxDrawdown (series ++ [term]) =
          max ((walk (series ++ [term])).peak - (walk (series ++ [term])).cumulative)
            (maxDrawdown series) := by
        rw [maxDrawdown, maxDrawdown, walk_concat]
        simp only [Walk.step]
        rw [max_def_lt]
        split_ifs <;> first | rfl | order
      rwa [stepped]

theorem maxDrawdown_reverse (series : List α) :
    maxDrawdown series.reverse = maxDrawdown series := by
  have backwards := isGreatest_maxDrawdown series.reverse
  rw [stretchLosses_reverse] at backwards
  exact backwards.unique (isGreatest_maxDrawdown series)

end Drawdown

/-! ## Slope -/

section Slope

variable {α : Type} [Field α] [CharZero α]

/-- Where the middle of a series lies. -/
def middle (length : ℕ) : α := (length - 1) / 2

/-- The distances of the places from a centre, times what the terms are above an average. -/
def leverage (centre average : α) (series : List α) : α :=
  (series.zipIdx.map fun entry => ((entry.2 : α) - centre) * (entry.1 - average)).sum

/-- Sum over all pairs of terms of the later one less the earlier one. -/
def rise : List α → α
  | [] => 0
  | term :: series => series.sum - series.length * term + rise series

omit [CharZero α] in
theorem rise_concat (series : List α) (term : α) :
    rise (series ++ [term]) = rise series + series.length * term - series.sum := by
  induction series with
  | nil => simp [rise]
  | cons first series induction =>
      simp only [List.cons_append, rise, induction, List.sum_append, List.sum_cons, List.sum_nil,
        List.length_append, List.length_cons, List.length_nil]
      push_cast
      ring

omit [CharZero α] in
/-- Read backwards, every pair counts with the other sign. -/
theorem rise_reverse (series : List α) : rise series.reverse = -rise series := by
  induction series with
  | nil => simp [rise]
  | cons term series induction =>
      rw [List.reverse_cons, rise_concat, induction, List.sum_reverse, List.length_reverse, rise]
      ring

/-- Seen from the middle, the leverage is half the rise, whatever the terms are compared with. -/
theorem leverage_middle (average : α) (series : List α) :
    leverage (middle series.length) average series = rise series / 2 := by
  have moved : ∀ (series : List α) (centre : α) (place : ℕ),
      ((series.zipIdx place).map fun entry =>
          ((entry.2 : α) - centre) * (entry.1 - average)).sum =
        rise series / 2 + (place - centre + (series.length - 1) / 2) *
          (series.sum - series.length * average) := by
    intro series
    induction series with
    | nil => simp [rise]
    | cons term series induction =>
        intro centre place
        rw [List.zipIdx_cons, List.map_cons, List.sum_cons, induction]
        simp only [rise, List.length_cons, List.sum_cons]
        push_cast
        ring
  rw [leverage, moved, middle]
  push_cast
  ring

/-- Sum of the squared distances from the middle. -/
def spread (length : ℕ) : α :=
  ((List.range length).map fun place : ℕ => ((place : α) - middle length) ^ 2).sum

theorem spread_eq (length : ℕ) : (spread length : α) = length * (length ^ 2 - 1) / 12 := by
  have about : ∀ (centre : α) (count : ℕ),
      ((List.range count).map fun place : ℕ => ((place : α) - centre) ^ 2).sum =
        count * (count - 1) * (2 * count - 1) / 6 - centre * count * (count - 1) +
          count * centre ^ 2 := by
    intro centre count
    induction count with
    | zero => simp
    | succ count induction =>
        rw [List.range_succ, List.map_append, List.sum_append, induction]
        push_cast
        simp only [List.map_cons, List.map_nil, List.sum_cons, List.sum_nil]
        field_simp
        ring
  rw [spread, about, middle]
  field_simp
  ring

end Slope

end Series
