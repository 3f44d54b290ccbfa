import Mathlib.Algebra.BigOperators.Field
import Mathlib.Algebra.BigOperators.Intervals
import Mathlib.Algebra.Order.BigOperators.Group.Finset
import Mathlib.Algebra.Order.Field.Rat
import Mathlib.Data.Fintype.BigOperators
import Mathlib.Data.List.FinRange
import Mathlib.Data.List.OfFn
import Mathlib.Data.List.Sort
import Mathlib.Order.Interval.Finset.Nat
import Mathlib.Tactic.FieldSimp
import Mathlib.Tactic.Linarith
import Mathlib.Tactic.Order
import Mathlib.Tactic.Ring

/-!
# Ranks in a stable order

Values are ranked from one on by their order, and by their position where they are equal.  The
squared differences of two rankings measure how far these are apart; turning one of the orders round
complements the measure, up to what the ties add.
-/

namespace Series

open Finset

variable {ι α β : Type*} [LinearOrder ι] [LinearOrder α] [LinearOrder β]

/-! ## The stable order -/

/-- A position comes no later than another one in the stable order of the values. -/
def Precedes (values : ι → α) (first second : ι) : Prop :=
  values first < values second ∨ values first = values second ∧ first ≤ second

instance (values : ι → α) (first second : ι) : Decidable (Precedes values first second) :=
  inferInstanceAs (Decidable (_ ∨ _))

variable {values : ι → α} {first second third : ι}

theorem Precedes.refl (values : ι → α) (place : ι) : Precedes values place place :=
  Or.inr ⟨rfl, le_rfl⟩

theorem Precedes.total (values : ι → α) (first second : ι) :
    Precedes values first second ∨ Precedes values second first := by
  rcases lt_trichotomy (values first) (values second) with less | same | greater
  · exact Or.inl (Or.inl less)
  · rcases le_total first second with early | late
    · exact Or.inl (Or.inr ⟨same, early⟩)
    · exact Or.inr (Or.inr ⟨same.symm, late⟩)
  · exact Or.inr (Or.inl greater)

theorem Precedes.trans (one : Precedes values first second)
    (other : Precedes values second third) : Precedes values first third := by
  rcases one with less | ⟨same, early⟩ <;> rcases other with more | ⟨equal, late⟩
  · exact Or.inl (less.trans more)
  · exact Or.inl (less.trans_eq equal)
  · exact Or.inl (same.trans_lt more)
  · exact Or.inr ⟨same.trans equal, early.trans late⟩

theorem Precedes.antisymm (one : Precedes values first second)
    (other : Precedes values second first) : first = second := by
  rcases one with less | ⟨same, early⟩ <;> rcases other with more | ⟨equal, late⟩
  · exact absurd more less.asymm
  · exact absurd equal less.ne'
  · exact absurd same more.ne'
  · exact early.antisymm late

/-! ## Ranks -/

variable [Fintype ι]

/-- The rank of a position. -/
def rank (values : ι → α) (place : ι) : ℕ := (univ.filter (Precedes values · place)).card

theorem rank_lt_rank (precedes : Precedes values first second) (apart : first ≠ second) :
    rank values first < rank values second := by
  refine card_lt_card (ssubset_iff_of_subset ?_ |>.mpr ⟨second, ?_, ?_⟩)
  · intro place inside
    exact mem_filter.mpr ⟨mem_univ _, (mem_filter.mp inside).2.trans precedes⟩
  · exact mem_filter.mpr ⟨mem_univ _, Precedes.refl values second⟩
  · intro inside
    exact apart (precedes.antisymm (mem_filter.mp inside).2)

theorem rank_le_rank_iff : rank values first ≤ rank values second ↔
    Precedes values first second := by
  constructor
  · intro le
    rcases eq_or_ne first second with rfl | apart
    · exact Precedes.refl values first
    · refine (Precedes.total values first second).resolve_right fun precedes => ?_
      exact (rank_lt_rank precedes (Ne.symm apart)).not_ge le
  · intro precedes
    exact card_le_card fun place inside =>
      mem_filter.mpr ⟨mem_univ _, (mem_filter.mp inside).2.trans precedes⟩

theorem rank_injective (values : ι → α) : Function.Injective (rank values) := by
  intro first second same
  by_contra apart
  rcases Precedes.total values first second with precedes | precedes
  · exact (rank_lt_rank precedes apart).ne same
  · exact (rank_lt_rank precedes (Ne.symm apart)).ne same.symm

theorem rank_sub_ne_zero (apart : first ≠ second) :
    (rank values first : ℚ) - rank values second ≠ 0 :=
  sub_ne_zero.mpr (Nat.cast_injective.ne ((rank_injective values).ne apart))

theorem image_rank (values : ι → α) : univ.image (rank values) = Icc 1 (Fintype.card ι) := by
  refine eq_of_subset_of_card_le ?_ ?_
  · intro number inside
    obtain ⟨place, -, rfl⟩ := mem_image.mp inside
    have own : place ∈ univ.filter (Precedes values · place) :=
      mem_filter.mpr ⟨mem_univ _, Precedes.refl values place⟩
    exact mem_Icc.mpr ⟨card_pos.mpr ⟨place, own⟩, card_le_univ _⟩
  · rw [card_image_of_injective _ (rank_injective values), Nat.card_Icc, card_univ]
    omega

theorem sum_rank {M : Type*} [AddCommMonoid M] (values : ι → α) (term : ℕ → M) :
    ∑ place, term (rank values place) = ∑ number ∈ Icc 1 (Fintype.card ι), term number := by
  rw [← image_rank values, sum_image (rank_injective values).injOn]

/-- Ranks only look at the order of the values. -/
theorem rank_congr {other : ι → β} (less : ∀ first second, other first < other second ↔
    values first < values second) : rank other = rank values := by
  funext place
  refine congrArg card (filter_congr fun position _ => ?_)
  have same : other position = other place ↔ values position = values place := by
    simp only [le_antisymm_iff, ← not_lt, less]
  rw [Precedes, Precedes, less, same]

theorem rank_comp {change : α → β} (increasing : StrictMono change) :
    rank (change ∘ values) = rank values :=
  rank_congr fun _ _ => increasing.lt_iff_lt

/-- Distinct values are ranked by how many are not above them. -/
theorem rank_of_injective (distinct : Function.Injective values) (place : ι) :
    rank values place = (univ.filter fun position => values position ≤ values place).card := by
  refine congrArg card (filter_congr fun position _ => ?_)
  rw [Precedes, @le_iff_lt_or_eq _ _ (values position)]
  exact or_congr_right ⟨And.left, fun same => ⟨same, (distinct same).le⟩⟩

theorem rank_rank (values : ι → α) : rank (rank values) = rank values := by
  funext place
  rw [rank_of_injective (rank_injective values)]
  exact congrArg card (filter_congr fun position _ => rank_le_rank_iff)

/-! ## Ties -/

/-- How many earlier values are equal to that at a position. -/
def tiesBefore (values : ι → α) (place : ι) : ℕ :=
  (univ.filter fun position => values position = values place ∧ position < place).card

/-- How many later values are equal to that at a position. -/
def tiesAfter (values : ι → α) (place : ι) : ℕ :=
  (univ.filter fun position => values position = values place ∧ place < position).card

/-- By how much ties keep a position from the other end of the reversed ranking. -/
def tieShift (values : ι → α) (place : ι) : ℚ := tiesBefore values place - tiesAfter values place

/-- The ranks of values and of these in reverse order. -/
theorem rank_add_rank {reversed : ι → β} (reverses : ∀ first second,
    reversed first < reversed second ↔ values second < values first) (place : ι) :
    (rank values place : ℚ) + rank reversed place =
      Fintype.card ι + 1 + tieShift values place := by
  have same (position : ι) : reversed position = reversed place ↔
      values position = values place := by
    simp only [le_antisymm_iff, ← not_lt, reverses]
    exact and_comm
  have pointwise (position : ι) :
      (if Precedes values position place then (1 : ℚ) else 0) +
          (if Precedes reversed position place then 1 else 0) +
          (if values position = values place ∧ place < position then 1 else 0) =
        1 + (if position = place then 1 else 0) +
          (if values position = values place ∧ position < place then 1 else 0) := by
    simp only [Precedes, reverses, same]
    rcases lt_trichotomy (values position) (values place) with less | equal | greater
    · have apart : position ≠ place := fun equal => less.ne (congrArg values equal)
      simp [less, less.ne, less.asymm, apart]
    · rcases lt_trichotomy position place with early | here | late
      · simp [equal, early, early.le, early.ne, early.asymm]
      · simp [here]
      · simp [equal, late, late.ne', late.asymm, not_le.mpr late]
    · have apart : position ≠ place := fun equal => greater.ne' (congrArg values equal)
      simp [greater, greater.ne', greater.asymm, apart]
  have total := sum_congr rfl fun position (_ : position ∈ univ) => pointwise position
  simp only [sum_add_distrib, sum_boole, sum_const, card_univ, nsmul_eq_mul, mul_one] at total
  have one : (univ.filter fun position => position = place).card = 1 := by
    rw [filter_eq', if_pos (mem_univ place), card_singleton]
  rw [one, Nat.cast_one] at total
  rw [tieShift, tiesBefore, tiesAfter, rank, rank]
  linarith

/-- What the ties add to a ranking is the sum of the rank differences of the tied pairs. -/
theorem sum_rank_mul_tieShift (values : ι → α) :
    ∑ place, (rank values place : ℚ) * tieShift values place =
      ∑ place, ∑ position, if values position = values place ∧ position < place then
        (rank values place : ℚ) - rank values position else 0 := by
  have before (place : ι) : (rank values place : ℚ) * tiesBefore values place =
      ∑ position, if values position = values place ∧ position < place then
        (rank values place : ℚ) else 0 := by
    rw [← sum_filter, sum_const, nsmul_eq_mul, mul_comm]
    rfl
  have after : ∑ place, (rank values place : ℚ) * tiesAfter values place =
      ∑ place, ∑ position, if values position = values place ∧ position < place then
        (rank values position : ℚ) else 0 := by
    rw [sum_comm]
    refine sum_congr rfl fun place _ => ?_
    rw [← sum_filter, sum_const, nsmul_eq_mul, mul_comm, tiesAfter]
    simp only [eq_comm]
  simp only [tieShift, mul_sub, sum_sub_distrib, after, before]
  rw [← sum_sub_distrib]
  refine sum_congr rfl fun place _ => ?_
  rw [← sum_sub_distrib]
  refine sum_congr rfl fun position _ => ?_
  split_ifs
  · rfl
  · exact sub_zero 0

theorem sum_rank_mul_tieShift_pos (tied : ¬Function.Injective values) :
    0 < ∑ place, (rank values place : ℚ) * tieShift values place := by
  have nonneg (place position : ι) : 0 ≤ if values position = values place ∧ position < place then
      (rank values place : ℚ) - rank values position else 0 := by
    split_ifs with tie
    · exact sub_nonneg.mpr (Nat.cast_le.mpr
        (rank_lt_rank (Or.inr ⟨tie.1, tie.2.le⟩) tie.2.ne).le)
    · exact le_rfl
  have pair : ∃ early late, values early = values late ∧ early < late := by
    simp only [Function.Injective, not_forall] at tied
    obtain ⟨first, second, same, apart⟩ := tied
    rcases lt_or_gt_of_ne apart with early | late
    · exact ⟨first, second, same, early⟩
    · exact ⟨second, first, same.symm, late⟩
  obtain ⟨early, late, same, earlier⟩ := pair
  rw [sum_rank_mul_tieShift]
  refine sum_pos' (fun place _ => sum_nonneg fun position _ => nonneg place position)
    ⟨late, mem_univ _, ?_⟩
  refine sum_pos' (fun position _ => nonneg late position) ⟨early, mem_univ _, ?_⟩
  rw [if_pos ⟨same, earlier⟩]
  exact sub_pos.mpr (Nat.cast_lt.mpr (rank_lt_rank (Or.inr ⟨same, earlier.le⟩) earlier.ne))

theorem tieShift_of_injective (distinct : Function.Injective values) (place : ι) :
    tieShift values place = 0 := by
  have none (later : ι → Prop) [DecidablePred later] (apart : ∀ position, later position →
      position ≠ place) :
      (univ.filter fun position => values position = values place ∧ later position) = ∅ :=
    filter_eq_empty_iff.mpr fun position _ tie => apart position tie.2 (distinct tie.1)
  rw [tieShift, tiesBefore, tiesAfter, none _ fun _ => ne_of_lt, none _ fun _ => ne_of_gt]
  exact sub_self _

/-! ## Distance -/

/-- The sum of the squared differences of two rankings. -/
def rankDistance (xs : ι → α) (ys : ι → β) : ℚ :=
  ∑ place, ((rank xs place : ℚ) - rank ys place) ^ 2

theorem sum_Icc_cast (count : ℕ) :
    ∑ number ∈ Icc 1 count, (number : ℚ) = count * (count + 1) / 2 := by
  induction count with
  | zero => simp
  | succ count induction =>
      rw [sum_Icc_succ_top (Nat.le_add_left 1 count), induction]
      push_cast
      ring

theorem sum_Icc_cast_sq (count : ℕ) :
    ∑ number ∈ Icc 1 count, (number : ℚ) ^ 2 =
      count * (count + 1) * (2 * count + 1) / 6 := by
  induction count with
  | zero => simp
  | succ count induction =>
      rw [sum_Icc_succ_top (Nat.le_add_left 1 count), induction]
      push_cast
      ring

theorem rankDistance_nonneg (xs : ι → α) (ys : ι → β) : 0 ≤ rankDistance xs ys :=
  sum_nonneg fun _ _ => sq_nonneg _

theorem rankDistance_comm (xs : ι → α) (ys : ι → β) : rankDistance ys xs = rankDistance xs ys :=
  sum_congr rfl fun _ _ => by ring

theorem rankDistance_add_rankDistance {γ : Type*} [LinearOrder γ] (xs : ι → α) {ys : ι → β}
    {reversed : ι → γ} (reverses : ∀ first second,
      reversed first < reversed second ↔ ys second < ys first) :
    rankDistance xs ys + rankDistance xs reversed =
      (Fintype.card ι : ℚ) * ((Fintype.card ι : ℚ) ^ 2 - 1) / 3 -
        2 * ∑ place, (rank xs place : ℚ) * tieShift ys place := by
  have pointwise (place : ι) :
      ((rank xs place : ℚ) - rank ys place) ^ 2 + ((rank xs place : ℚ) - rank reversed place) ^ 2 =
        2 * (rank xs place : ℚ) ^ 2 + (rank ys place : ℚ) ^ 2 + (rank reversed place : ℚ) ^ 2 -
          2 * (Fintype.card ι + 1) * rank xs place -
            2 * (rank xs place * tieShift ys place) := by
    have sum := rank_add_rank reverses place
    have reversedRank : (rank reversed place : ℚ) =
        Fintype.card ι + 1 + tieShift ys place - rank ys place := by linarith
    rw [reversedRank]
    ring
  rw [rankDistance, rankDistance, ← sum_add_distrib, sum_congr rfl fun place _ => pointwise place]
  simp only [sum_sub_distrib, sum_add_distrib, ← mul_sum]
  rw [sum_rank xs fun number => (number : ℚ), sum_rank xs fun number => (number : ℚ) ^ 2,
    sum_rank ys fun number => (number : ℚ) ^ 2, sum_rank reversed fun number => (number : ℚ) ^ 2,
    sum_Icc_cast, sum_Icc_cast_sq]
  ring

theorem rankDistance_le (xs : ι → α) (ys : ι → β) :
    rankDistance xs ys ≤ (Fintype.card ι : ℚ) * ((Fintype.card ι : ℚ) ^ 2 - 1) / 3 := by
  -- the ranks are distinct values with the same ranks
  have both : rankDistance xs (rank ys) +
      rankDistance xs (fun place => OrderDual.toDual (rank ys place)) = _ :=
    rankDistance_add_rankDistance xs fun _ _ => OrderDual.toDual_lt_toDual
  have zero : ∑ place, (rank xs place : ℚ) * tieShift (rank ys) place = 0 :=
    sum_eq_zero fun place _ => by rw [tieShift_of_injective (rank_injective ys), mul_zero]
  have nonneg := rankDistance_nonneg xs fun place => OrderDual.toDual (rank ys place)
  have same : rankDistance xs (rank ys) = rankDistance xs ys := by
    rw [rankDistance, rank_rank]
    rfl
  rw [zero, mul_zero, sub_zero, same] at both
  linarith

/-! ## Other positions -/

/-- Ranks move with the positions if equal values stay in their order. -/
theorem rank_comp_equiv {values : ι → α} (moved : Equiv.Perm ι) (ordered : ∀ first second,
    values (moved first) = values (moved second) →
      (first ≤ second ↔ moved first ≤ moved second)) (place : ι) :
    rank (values ∘ moved) place = rank values (moved place) := by
  refine card_equiv moved fun position => ?_
  rw [mem_filter, mem_filter]
  refine and_congr (iff_of_true (mem_univ _) (mem_univ _)) ?_
  exact or_congr_right (and_congr_right fun same => ordered position place same)

/-- The first two positions of distinct values are swapped. -/
theorem rank_comp_swap {first second : ι} (least : ∀ place, place ≠ first → place ≠ second →
    first < place ∧ second < place) (apart : values first ≠ values second) (place : ι) :
    rank (values ∘ Equiv.swap first second) place =
      rank values (Equiv.swap first second place) := by
  refine rank_comp_equiv _ (fun one other same => ?_) place
  rcases eq_or_ne one first with rfl | notFirst
  · rcases eq_or_ne other one with rfl | differ
    · exact iff_of_true le_rfl le_rfl
    rcases eq_or_ne other second with rfl | late
    · rw [Equiv.swap_apply_left, Equiv.swap_apply_right] at same
      exact absurd same.symm apart
    · rw [Equiv.swap_apply_left, Equiv.swap_apply_of_ne_of_ne differ late]
      exact iff_of_true (least other differ late).1.le (least other differ late).2.le
  rcases eq_or_ne one second with rfl | notSecond
  · rcases eq_or_ne other first with rfl | differ
    · rw [Equiv.swap_apply_left, Equiv.swap_apply_right] at same
      exact absurd same apart
    rcases eq_or_ne other one with rfl | late
    · exact iff_of_true le_rfl le_rfl
    · rw [Equiv.swap_apply_right, Equiv.swap_apply_of_ne_of_ne differ late]
      exact iff_of_true (least other differ late).2.le (least other differ late).1.le
  rw [Equiv.swap_apply_of_ne_of_ne notFirst notSecond]
  have early := least one notFirst notSecond
  rcases eq_or_ne other first with rfl | differ
  · rw [Equiv.swap_apply_left]
    exact iff_of_false early.1.not_ge early.2.not_ge
  rcases eq_or_ne other second with rfl | late
  · rw [Equiv.swap_apply_right]
    exact iff_of_false early.2.not_ge early.1.not_ge
  · rw [Equiv.swap_apply_of_ne_of_ne differ late]

/-- To swap the first two positions, with equal values in one ranking and distinct ones in the
other, changes the distance. -/
theorem rankDistance_swap_ne {xs : ι → α} {ys : ι → β} {first second : ι}
    (least : ∀ place, place ≠ first → place ≠ second → first < place ∧ second < place)
    (tied : xs first = xs second) (apart : ys first ≠ ys second) :
    rankDistance (xs ∘ Equiv.swap first second) (ys ∘ Equiv.swap first second) ≠
      rankDistance xs ys := by
  have distinct : first ≠ second := fun same => apart (congrArg ys same)
  have same : xs ∘ Equiv.swap first second = xs := by
    funext place
    rcases eq_or_ne place first with rfl | notFirst
    · rw [Function.comp_apply, Equiv.swap_apply_left, tied]
    rcases eq_or_ne place second with rfl | notSecond
    · rw [Function.comp_apply, Equiv.swap_apply_right, tied]
    · rw [Function.comp_apply, Equiv.swap_apply_of_ne_of_ne notFirst notSecond]
  have pointwise (place : ι) :
      ((rank xs place : ℚ) - rank ys (Equiv.swap first second place)) ^ 2 -
          ((rank xs place : ℚ) - rank ys place) ^ 2 =
        (if place = first then ((rank xs first : ℚ) - rank ys second) ^ 2 -
          ((rank xs first : ℚ) - rank ys first) ^ 2 else 0) +
        (if place = second then ((rank xs second : ℚ) - rank ys first) ^ 2 -
          ((rank xs second : ℚ) - rank ys second) ^ 2 else 0) := by
    rcases eq_or_ne place first with rfl | notFirst
    · rw [Equiv.swap_apply_left, if_pos rfl, if_neg distinct, add_zero]
    rcases eq_or_ne place second with rfl | notSecond
    · rw [Equiv.swap_apply_right, if_neg notFirst, if_pos rfl, zero_add]
    · rw [Equiv.swap_apply_of_ne_of_ne notFirst notSecond, if_neg notFirst, if_neg notSecond,
        sub_self, add_zero]
  have difference : rankDistance (xs ∘ Equiv.swap first second) (ys ∘ Equiv.swap first second) -
      rankDistance xs ys =
        2 * ((rank xs second : ℚ) - rank xs first) * ((rank ys second : ℚ) - rank ys first) := by
    rw [same, rankDistance, rankDistance, ← sum_sub_distrib]
    simp only [rank_comp_swap least apart, pointwise, sum_add_distrib, sum_ite_eq', mem_univ,
      if_true]
    ring
  intro equal
  rw [equal, sub_self] at difference
  exact mul_ne_zero (mul_ne_zero two_ne_zero (rank_sub_ne_zero distinct.symm))
    (rank_sub_ne_zero distinct.symm) difference.symm

/-! ## Ranks by sorting -/

/-- A value with a position comes before another one in the stable order. -/
def Before (entry other : α × ℕ) : Prop :=
  entry.1 < other.1 ∨ entry.1 = other.1 ∧ entry.2 < other.2

instance (entry other : α × ℕ) : Decidable (Before entry other) :=
  inferInstanceAs (Decidable (_ ∨ _))

theorem Before.asymm {entry other : α × ℕ} (before : Before entry other) :
    ¬Before other entry := by
  rintro (less | ⟨same, early⟩) <;> rcases before with more | ⟨equal, late⟩
  · exact less.asymm more
  · exact less.ne equal.symm
  · exact more.ne same.symm
  · exact early.asymm late

theorem Before.irrefl (entry : α × ℕ) : ¬Before entry entry := fun before => before.asymm before

/-- To sort by value is stable. -/
theorem pairwise_orderedInsert {entry : α × ℕ} {sorted : List (α × ℕ)}
    (pairwise : sorted.Pairwise Before) (early : ∀ other ∈ sorted, entry.2 < other.2) :
    (sorted.orderedInsert (fun first second => first.1 ≤ second.1) entry).Pairwise Before := by
  induction sorted with
  | nil => exact List.pairwise_singleton _ _
  | cons head sorted induction =>
      obtain ⟨first, others⟩ := List.pairwise_cons.mp pairwise
      rw [List.orderedInsert_cons]
      split_ifs with le
      · refine List.pairwise_cons.mpr ⟨fun other member => ?_, pairwise⟩
        have up : head.1 ≤ other.1 := by
          rcases List.mem_cons.mp member with rfl | later
          · exact le_rfl
          · rcases first other later with less | ⟨same, -⟩
            · exact less.le
            · exact same.le
        rcases (le.trans up).lt_or_eq with less | same
        · exact Or.inl less
        · exact Or.inr ⟨same, early other member⟩
      · refine List.pairwise_cons.mpr ⟨fun other member => ?_,
          induction others fun other member => early other (List.mem_cons_of_mem _ member)⟩
        rcases (List.mem_orderedInsert _).mp member with rfl | later
        · exact Or.inl (not_le.mp le)
        · exact first other later

theorem pairwise_insertionSort_zipIdx (values : List α) (start : ℕ) :
    ((values.zipIdx start).insertionSort fun first second => first.1 ≤ second.1).Pairwise
      Before := by
  induction values generalizing start with
  | nil => exact List.Pairwise.nil
  | cons value values induction =>
      rw [List.zipIdx_cons, List.insertionSort_cons]
      refine pairwise_orderedInsert (induction (start + 1)) fun other member => ?_
      have inside := (List.mem_insertionSort _).mp member
      exact (List.mem_zipIdx_iff_le_and_getElem?_sub.mp inside).1

/-- In a sorted list an entry stands behind those that come before it. -/
theorem findIdx?_eq_countP {sorted : List (α × ℕ)} (pairwise : sorted.Pairwise Before)
    {entry : α × ℕ} (member : entry ∈ sorted)
    (unique : ∀ other ∈ sorted, other.2 = entry.2 → other = entry) :
    (sorted.findIdx? fun other => other.2 = entry.2) =
      some (sorted.countP fun other => Before other entry) := by
  induction sorted with
  | nil => cases member
  | cons head sorted induction =>
      obtain ⟨first, others⟩ := List.pairwise_cons.mp pairwise
      rw [List.findIdx?_cons, List.countP_cons]
      by_cases found : head.2 = entry.2
      · have same := unique head List.mem_cons_self found
        subst same
        have none : sorted.countP (fun other => Before other head) = 0 := by
          refine List.countP_eq_zero.mpr fun other later => ?_
          simpa using (first other later).asymm
        simp [none, (Before.irrefl head)]
      · have later : entry ∈ sorted := (List.mem_cons.mp member).resolve_left
          fun same => found (congrArg Prod.snd same.symm)
        rw [induction others later fun other among =>
          unique other (List.mem_cons_of_mem _ among)]
        simp [found, first entry later]

theorem countP_ofFn {count : ℕ} {γ : Type*} (items : Fin count → γ) (holds : γ → Prop)
    [DecidablePred holds] :
    (List.ofFn items).countP (holds ·) = (univ.filter fun place => holds (items place)).card := by
  rw [List.ofFn_eq_map, List.countP_map, List.countP_eq_length_filter]
  rfl

theorem findIdx?_insertionSort {count : ℕ} (values : Fin count → α) (place : Fin count) :
    ∃ position, (((List.ofFn values).zipIdx.insertionSort
        fun first second => first.1 ≤ second.1).findIdx? fun entry => entry.2 = (place : ℕ)) =
      some position ∧ position + 1 = rank values place := by
  have entries : (List.ofFn values).zipIdx = List.ofFn fun index => (values index, (index : ℕ)) :=
    List.ext_getElem (by simp) fun index _ _ => by simp
  have member : (values place, (place : ℕ)) ∈ List.ofFn fun index => (values index, (index : ℕ)) :=
    List.mem_ofFn.mpr ⟨place, rfl⟩
  have sorted := pairwise_insertionSort_zipIdx (List.ofFn values) 0
  rw [entries] at sorted ⊢
  refine ⟨_, findIdx?_eq_countP sorted ((List.mem_insertionSort _).mpr member) ?_, ?_⟩
  · intro other among same
    obtain ⟨index, rfl⟩ := List.mem_ofFn.mp ((List.mem_insertionSort _).mp among)
    rw [Fin.ext same]
  · rw [(List.perm_insertionSort _ _).countP_eq, countP_ofFn, rank, ← card_insert_of_notMem]
    · refine congrArg card ?_
      ext position
      rw [mem_insert, mem_filter, mem_filter]
      simp only [mem_univ, true_and, Before, Precedes, @le_iff_lt_or_eq _ _ position, Fin.lt_def]
      constructor
      · rintro (rfl | less | ⟨same, early⟩)
        · exact Or.inr ⟨rfl, Or.inr rfl⟩
        · exact Or.inl less
        · exact Or.inr ⟨same, Or.inl early⟩
      · rintro (less | ⟨same, early | rfl⟩)
        · exact Or.inr (Or.inl less)
        · exact Or.inr (Or.inr ⟨same, early⟩)
        · exact Or.inl rfl
    · exact fun itself => Before.irrefl _ (mem_filter.mp itself).2

end Series
