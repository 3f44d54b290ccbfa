import Mathlib.Tactic.Abel
import TradingControl.Series.Reversal

/-!
# Falls of a series

The largest fall below a running peak is the largest fall from any entry to itself or a later one,
however falls are measured, as long as a fall from higher up is no smaller.
-/

namespace Series

/-! ## Totals -/

section Totals

variable {α : Type} [AddCommGroup α]

theorem mem_stretchLosses_iff {series : List α} {loss : α} :
    loss ∈ stretchLosses series ↔ ∃ i j, i ≤ j ∧ j ≤ series.length ∧
      loss = (series.take i).sum - (series.take j).sum := by
  constructor
  · rintro ⟨stretch, ⟨before, after, rfl⟩, rfl⟩
    refine ⟨before.length, before.length + stretch.length, Nat.le_add_right _ _, by simp, ?_⟩
    rw [← List.length_append, List.take_left, List.append_assoc, List.take_left, List.sum_append]
    abel
  · rintro ⟨i, j, ordered, within, rfl⟩
    refine ⟨(series.take j).drop i,
      (List.drop_suffix _ _).isInfix.trans (List.take_prefix _ _).isInfix, ?_⟩
    have split := congrArg List.sum (List.take_append_drop i (series.take j))
    rw [List.sum_append, List.take_take, min_eq_left ordered] at split
    rw [← split]
    abel

variable [LinearOrder α]

/-- What the running total has fallen below its highest value, or below zero. -/
def totalFalls (series : List α) : Set α :=
  {fall | ∃ i j, i ≤ j ∧ j ≤ series.length ∧
    fall = max 0 (series.take i).sum - (series.take j).sum}

variable [IsOrderedAddMonoid α]

theorem isGreatest_totalFalls (series : List α) :
    IsGreatest (totalFalls series) (maxDrawdown series) := by
  obtain ⟨attained, largest⟩ := isGreatest_maxDrawdown series
  have bound : maxDrawdown series ∈ upperBounds (totalFalls series) := by
    rintro _ ⟨i, j, ordered, within, rfl⟩
    rcases max_choice 0 (series.take i).sum with fromStart | fromEntry
    · rw [fromStart]
      exact largest (mem_stretchLosses_iff.mpr ⟨0, j, Nat.zero_le _, within, by simp⟩)
    · rw [fromEntry]
      exact largest (mem_stretchLosses_iff.mpr ⟨i, j, ordered, within, rfl⟩)
  obtain ⟨i, j, ordered, within, lost⟩ := mem_stretchLosses_iff.mp attained
  have fall : max 0 (series.take i).sum - (series.take j).sum ∈ totalFalls series :=
    ⟨i, j, ordered, within, rfl⟩
  have reached : max 0 (series.take i).sum - (series.take j).sum = maxDrawdown series := by
    refine le_antisymm (bound fall) ?_
    rw [lost]
    exact sub_le_sub_right (le_max_right _ _) _
  exact ⟨reached ▸ fall, bound⟩

theorem maxDrawdown_nonneg (series : List α) : 0 ≤ maxDrawdown series :=
  (isGreatest_maxDrawdown series).2 ⟨[], List.nil_infix, by simp⟩

end Totals

/-! ## Peaks -/

section Peaks

variable {α β : Type} [LinearOrder α] [LinearOrder β] (fall : α → α → β)

/-- The largest fall below the peak so far, or the deepest one before. -/
def deepest : α → β → List α → β
  | _, worst, [] => worst
  | peak, worst, entry :: series =>
      deepest (max peak entry) (max worst (fall (max peak entry) entry)) series

/-- What is lost from an entry to itself or a later one. -/
def falls (series : List α) : Set β :=
  {lost | ∃ (i j : ℕ) (high low : α), i ≤ j ∧ series[i]? = some high ∧
    series[j]? = some low ∧ lost = fall high low}

theorem deepest_cons (peak : α) (worst : β) (entry : α) (series : List α) :
    deepest fall peak worst (entry :: series) =
      deepest fall (max peak entry) (max worst (fall (max peak entry) entry)) series := rfl

variable {fall} {peak : α} {worst : β} {series : List α}

theorem worst_le_deepest : worst ≤ deepest fall peak worst series := by
  induction series generalizing peak worst with
  | nil => exact le_refl _
  | cons entry series induction => exact (le_max_left _ _).trans induction

/-- A repeated entry moves neither the peak nor the deepest fall. -/
theorem deepest_repeat (early : List α) (entry : α) (later : List α) :
    deepest fall peak worst (early ++ entry :: entry :: later) =
      deepest fall peak worst (early ++ entry :: later) := by
  induction early generalizing peak worst with
  | nil =>
      simp only [List.nil_append, deepest_cons]
      rw [max_assoc peak, max_self, max_assoc worst, max_self]
  | cons first early induction => exact induction

/-- The deepest fall is the one before, or one from the first peak, or one between two entries. -/
theorem deepest_cases (fall : α → α → β) (peak : α) (worst : β) (series : List α) :
    deepest fall peak worst series = worst ∨
      (∃ low ∈ series, deepest fall peak worst series = fall peak low) ∨
        deepest fall peak worst series ∈ falls fall series := by
  induction series generalizing peak worst with
  | nil => exact .inl rfl
  | cons entry series induction =>
      rw [deepest_cons]
      have higher := max_choice peak entry
      rcases induction (max peak entry) (max worst (fall (max peak entry) entry)) with
        atWorst | ⟨low, member, fromPeak⟩ | ⟨i, j, high, low, ordered, atHigh, atLow, between⟩
      · rw [atWorst]
        rcases max_choice worst (fall (max peak entry) entry) with kept | fell
        · exact .inl kept
        · rw [fell]
          rcases higher with old | new
          · exact .inr (.inl ⟨entry, List.mem_cons_self, by rw [old]⟩)
          · exact .inr (.inr ⟨0, 0, entry, entry, le_refl _, rfl, rfl, by rw [new]⟩)
      · rw [fromPeak]
        rcases higher with old | new
        · exact .inr (.inl ⟨low, List.mem_cons_of_mem _ member, by rw [old]⟩)
        · obtain ⟨j, atLow⟩ := List.mem_iff_getElem?.mp member
          exact .inr (.inr ⟨0, j + 1, entry, low, Nat.zero_le _, rfl, atLow, by rw [new]⟩)
      · exact .inr (.inr ⟨i + 1, j + 1, high, low, Nat.succ_le_succ ordered, atHigh, atLow,
          between⟩)

/-- Among sound values, what lies higher falls further. -/
def Deepens (fall : α → α → β) (Sound : α → Prop) : Prop :=
  ∀ ⦃low high value : α⦄, Sound low → low ≤ high → Sound value → fall low value ≤ fall high value

variable {Sound : α → Prop}

theorem le_deepest_of_le_peak (deepens : Deepens fall Sound)
    (sound : ∀ entry ∈ series, Sound entry) {high low : α} (highSound : Sound high)
    (below : high ≤ peak) (member : low ∈ series) :
    fall high low ≤ deepest fall peak worst series := by
  induction series generalizing peak worst with
  | nil => cases member
  | cons entry series induction =>
      rw [List.forall_mem_cons] at sound
      rw [deepest_cons]
      have under : high ≤ max peak entry := below.trans (le_max_left _ _)
      rcases List.mem_cons.mp member with rfl | member
      · exact (deepens highSound under sound.1).trans ((le_max_right _ _).trans worst_le_deepest)
      · exact induction sound.2 under member

/-- No two entries are further apart than the deepest fall. -/
theorem deepest_mem_upperBounds (deepens : Deepens fall Sound)
    (sound : ∀ entry ∈ series, Sound entry) :
    deepest fall peak worst series ∈ upperBounds (falls fall series) := by
  rintro _ ⟨i, j, high, low, ordered, atHigh, atLow, rfl⟩
  induction series generalizing peak worst i j with
  | nil => simp at atHigh
  | cons entry series induction =>
      cases i with
      | zero =>
          obtain rfl : entry = high := Option.some.inj atHigh
          have raised : deepest fall peak worst (entry :: series) =
              deepest fall (max peak entry) worst (entry :: series) := by
            rw [deepest_cons, deepest_cons, max_assoc, max_self]
          rw [raised]
          exact le_deepest_of_le_peak deepens sound (sound entry List.mem_cons_self)
            (le_max_right _ _) (List.mem_of_getElem? atLow)
      | succ i =>
          cases j with
          | zero => omega
          | succ j =>
              have sound := (List.forall_mem_cons.mp sound).2
              exact induction sound i j (Nat.succ_le_succ_iff.mp ordered) atHigh atLow

theorem isGreatest_falls (deepens : Deepens fall Sound) {first : α}
    (sound : ∀ entry ∈ first :: series, Sound entry) :
    IsGreatest (falls fall (first :: series))
      (deepest fall first (fall first first) (first :: series)) := by
  refine ⟨?_, deepest_mem_upperBounds deepens sound⟩
  rcases deepest_cases fall first (fall first first) (first :: series) with
    same | ⟨low, member, fromFirst⟩ | between
  · exact ⟨0, 0, first, first, le_refl _, rfl, rfl, same⟩
  · obtain ⟨j, atLow⟩ := List.mem_iff_getElem?.mp member
    exact ⟨0, j, first, low, Nat.zero_le _, rfl, atLow, fromFirst⟩
  · exact between

end Peaks

/-! ## Shares of the peak -/

section Shares

variable {α : Type} [Field α] [LinearOrder α] [IsStrictOrderedRing α]

/-- The share of a high value that is lost at a low one. -/
def relativeFall (high low : α) : α := (high - low) / high

omit [LinearOrder α] [IsStrictOrderedRing α] in
theorem relativeFall_self (value : α) : relativeFall value value = 0 := by
  rw [relativeFall, sub_self, zero_div]

theorem deepens_relativeFall : Deepens (relativeFall (α := α)) (0 < ·) := by
  intro low high value lowPos higher valuePos
  have highPos : 0 < high := lowPos.trans_le higher
  rw [relativeFall, relativeFall, sub_div, sub_div, div_self lowPos.ne', div_self highPos.ne']
  exact sub_le_sub_left (div_le_div_of_nonneg_left valuePos.le lowPos higher) 1

end Shares

end Series
