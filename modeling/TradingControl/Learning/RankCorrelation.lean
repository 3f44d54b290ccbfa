import Mathlib.Algebra.BigOperators.Fin
import TradingControl.Learning.GradeAgent
import TradingControl.Series.Ranks

/-!
# Rank correlation

The correlation of the learning agents ranks two lists and applies the formula for distinct ranks.
Equal values are ranked by their positions, so it is a rank correlation of lists without them.
-/

namespace TradingControl.Learning

open Finset
open Series hiding rank

/-! ## Laws -/

structure IsRankCorrelation (xs ys : List ℚ) : Prop where
  range : ∃ correlation, spearmanCorrelation xs ys = some correlation ∧
    -1 ≤ correlation ∧ correlation ≤ 1
  permuted : ∀ pairs, List.Perm pairs (xs.zip ys) →
    spearmanCorrelation (pairs.map Prod.fst) (pairs.map Prod.snd) = spearmanCorrelation xs ys
  increasing : ∀ change : ℚ → ℚ, StrictMono change →
    spearmanCorrelation (xs.map change) ys = spearmanCorrelation xs ys ∧
      spearmanCorrelation xs (ys.map change) = spearmanCorrelation xs ys
  symm : spearmanCorrelation ys xs = spearmanCorrelation xs ys
  negated : spearmanCorrelation xs (ys.map (-·)) = (spearmanCorrelation xs ys).map (-·)
  constant : (∃ value, ∀ x ∈ xs, x = value) ∨ (∃ value, ∀ y ∈ ys, y = value) →
    spearmanCorrelation xs ys = some 0

/-! ## Ranks -/

variable {n : ℕ} {x y : Fin n → ℚ}

theorem rank_ofFn (x : Fin n → ℚ) :
    rank n (List.ofFn x) = some (List.ofFn fun place => (Series.rank x place : ℚ)) := by
  rw [rank, if_neg (by rw [List.length_ofFn]; exact lt_irrefl n)]
  refine congrArg some (List.ext_getElem (by simp) fun index inside _ => ?_)
  rw [List.length_map, List.length_range] at inside
  obtain ⟨position, found, same⟩ := findIdx?_insertionSort x ⟨index, inside⟩
  rw [List.getElem_map, List.getElem_range, List.getElem_ofFn, ← same]
  simp only [found]
  push_cast
  rfl

/-- The formula of the correlation. -/
def correlationOf (n : ℕ) (distance : ℚ) : ℚ := 1 - 6 * distance / (n * ((n : ℚ) ^ 2 - 1))

theorem denominator_pos (enough : 3 ≤ n) : 0 < (n : ℚ) * ((n : ℚ) ^ 2 - 1) := by
  have large : (3 : ℚ) ≤ n := by exact_mod_cast enough
  exact mul_pos (by linarith) (by nlinarith)

theorem correlationOf_injective (enough : 3 ≤ n) : Function.Injective (correlationOf n) := by
  intro first second same
  have positive := denominator_pos enough
  rw [correlationOf, correlationOf, sub_right_inj, div_left_inj' positive.ne'] at same
  linarith

/-- The largest distance is that of opposite ranks. -/
theorem correlationOf_bounds (enough : 3 ≤ n) {distance : ℚ} (least : 0 ≤ distance)
    (most : distance ≤ (n : ℚ) * ((n : ℚ) ^ 2 - 1) / 3) :
    -1 ≤ correlationOf n distance ∧ correlationOf n distance ≤ 1 := by
  have positive := denominator_pos enough
  have above : 6 * distance / (n * ((n : ℚ) ^ 2 - 1)) ≤ 2 := by
    rw [div_le_iff₀ positive]
    linarith
  have below : 0 ≤ 6 * distance / (n * ((n : ℚ) ^ 2 - 1)) :=
    div_nonneg (by linarith) positive.le
  rw [correlationOf]
  constructor <;> linarith

theorem correlationOf_eq_neg_iff (enough : 3 ≤ n) (first second : ℚ) :
    correlationOf n second = -correlationOf n first ↔
      first + second = (n : ℚ) * ((n : ℚ) ^ 2 - 1) / 3 := by
  have positive := denominator_pos enough
  rw [correlationOf, correlationOf]
  generalize (n : ℚ) * ((n : ℚ) ^ 2 - 1) = denominator at positive ⊢
  have sum : 6 * first / denominator + 6 * second / denominator =
      6 * (first + second) / denominator := by ring
  have total : first + second = denominator / 3 ↔ 6 * (first + second) / denominator = 2 := by
    rw [div_eq_iff positive.ne']
    constructor <;> intro same <;> linarith
  rw [total, ← sum]
  constructor <;> intro same <;> linarith

theorem spearmanCorrelation_ofFn (enough : 3 ≤ n) (x y : Fin n → ℚ) :
    spearmanCorrelation (List.ofFn x) (List.ofFn y) =
      some (correlationOf n (rankDistance x y)) := by
  have squares : ((List.ofFn fun place => (Series.rank x place : ℚ)).zipWith
      (fun rx ry => (rx - ry) ^ 2) (List.ofFn fun place => (Series.rank y place : ℚ))).sum =
        rankDistance x y := by
    rw [rankDistance, ← List.sum_ofFn]
    exact congrArg List.sum (List.ext_getElem (by simp) fun index _ _ => by simp)
  simp only [spearmanCorrelation, List.length_ofFn, if_neg (not_lt.mpr enough), rank_ofFn,
    Option.bind_eq_bind, Option.bind_some, squares, if_pos (denominator_pos enough).ne']
  rfl

theorem eq_ofFn {xs : List ℚ} (length : xs.length = n) : ∃ x : Fin n → ℚ, xs = List.ofFn x := by
  subst length
  exact ⟨fun place => xs[place], List.ofFn_getElem.symm⟩

theorem zip_ofFn (x y : Fin n → ℚ) :
    (List.ofFn x).zip (List.ofFn y) = List.ofFn fun place => (x place, y place) :=
  List.ext_getElem (by simp) fun index _ _ => by simp

/-! ## Distinct values -/

theorem spearmanCorrelation_of_nodup {xs ys : List ℚ} (same : ys.length = xs.length)
    (enough : 3 ≤ xs.length) (distinct : xs.Nodup) (apart : ys.Nodup) :
    spearmanCorrelation xs ys = some (correlationOf xs.length ((xs.zip ys).map fun pair =>
      ((xs.countP (· ≤ pair.1) : ℚ) - ys.countP (· ≤ pair.2)) ^ 2).sum) := by
  obtain ⟨x, listed⟩ := eq_ofFn (rfl : xs.length = xs.length)
  obtain ⟨y, enlisted⟩ := eq_ofFn same
  generalize xs.length = n at *
  subst listed enlisted
  rw [spearmanCorrelation_ofFn enough, zip_ofFn, List.map_ofFn, List.sum_ofFn, rankDistance]
  refine congrArg (fun distance => some (correlationOf n distance)) ?_
  refine sum_congr rfl fun place _ => ?_
  rw [rank_of_injective (List.nodup_ofFn.mp distinct), rank_of_injective (List.nodup_ofFn.mp apart),
    Function.comp_apply, countP_ofFn, countP_ofFn]

theorem spearmanCorrelation_perm (enough : 3 ≤ n) (distinct : Function.Injective x)
    (apart : Function.Injective y) {pairs : List (ℚ × ℚ)}
    (perm : List.Perm pairs ((List.ofFn x).zip (List.ofFn y))) :
    spearmanCorrelation (pairs.map Prod.fst) (pairs.map Prod.snd) =
      spearmanCorrelation (List.ofFn x) (List.ofFn y) := by
  have firsts : (pairs.map Prod.fst).Perm (List.ofFn x) := by
    have mapped := perm.map Prod.fst
    rwa [List.map_fst_zip (by simp)] at mapped
  have seconds : (pairs.map Prod.snd).Perm (List.ofFn y) := by
    have mapped := perm.map Prod.snd
    rwa [List.map_snd_zip (by simp)] at mapped
  have length : (pairs.map Prod.fst).length = n := by rw [firsts.length_eq, List.length_ofFn]
  have zipped : (pairs.map Prod.fst).zip (pairs.map Prod.snd) = pairs := by
    rw [List.zip_map']
    exact List.map_id _
  rw [spearmanCorrelation_of_nodup (by simp) (length.ge.trans' enough)
      (firsts.nodup_iff.mpr (List.nodup_ofFn.mpr distinct))
      (seconds.nodup_iff.mpr (List.nodup_ofFn.mpr apart)),
    spearmanCorrelation_of_nodup (by simp) (by simpa using enough)
      (List.nodup_ofFn.mpr distinct) (List.nodup_ofFn.mpr apart), zipped, length,
    List.length_ofFn, (perm.map _).sum_eq]
  simp only [firsts.countP_eq, seconds.countP_eq]

theorem IsRankCorrelation.of_injective (enough : 3 ≤ n) (distinct : Function.Injective x)
    (apart : Function.Injective y) : IsRankCorrelation (List.ofFn x) (List.ofFn y) := by
  constructor
  · have atMost := rankDistance_le x y
    rw [Fintype.card_fin] at atMost
    exact ⟨_, spearmanCorrelation_ofFn enough x y,
      correlationOf_bounds enough (rankDistance_nonneg x y) atMost⟩
  · exact fun pairs perm => spearmanCorrelation_perm enough distinct apart perm
  · intro change increasing
    rw [List.map_ofFn, List.map_ofFn, spearmanCorrelation_ofFn enough,
      spearmanCorrelation_ofFn enough, spearmanCorrelation_ofFn enough, rankDistance, rankDistance,
      rankDistance, rank_comp increasing, rank_comp increasing]
    exact ⟨rfl, rfl⟩
  · rw [spearmanCorrelation_ofFn enough, spearmanCorrelation_ofFn enough, rankDistance_comm]
  · have complement : rankDistance x y + rankDistance x (fun place => -y place) = _ :=
      rankDistance_add_rankDistance x fun _ _ => neg_lt_neg_iff
    have zero : ∑ place, (Series.rank x place : ℚ) * tieShift y place = 0 :=
      sum_eq_zero fun place _ => by rw [tieShift_of_injective apart, mul_zero]
    rw [zero, mul_zero, sub_zero, Fintype.card_fin] at complement
    rw [List.map_ofFn, spearmanCorrelation_ofFn enough, spearmanCorrelation_ofFn enough,
      Option.map_some]
    exact congrArg some ((correlationOf_eq_neg_iff enough _ _).mpr complement)
  · have two : (⟨0, by omega⟩ : Fin n) ≠ ⟨1, by omega⟩ := by simp
    rintro (⟨value, all⟩ | ⟨value, all⟩)
    · rw [List.forall_mem_ofFn_iff] at all
      exact absurd (distinct ((all _).trans (all _).symm)) two
    · rw [List.forall_mem_ofFn_iff] at all
      exact absurd (apart ((all _).trans (all _).symm)) two

/-! ## Equal values -/

theorem cons_cons_eq_ofFn_swap {α : Type} (one other : α) (rest : List α) :
    other :: one :: rest =
      List.ofFn ((fun place : Fin (rest.length + 2) => (one :: other :: rest)[place]) ∘
        Equiv.swap 0 1) := by
  refine List.ext_getElem (by simp) fun index inside _ => ?_
  rw [List.getElem_ofFn, Function.comp_apply]
  match index with
  | 0 => rfl
  | 1 => rfl
  | index + 2 =>
      rw [Equiv.swap_apply_of_ne_of_ne]
      · rfl
      · exact fun first => Nat.succ_ne_zero _ (congrArg Fin.val first)
      · exact fun second => Nat.succ_ne_zero _ (Nat.succ.inj (congrArg Fin.val second))

/-- Two pairs that agree on one side only can be listed in two orders, with two correlations. -/
theorem spearmanCorrelation_swap_ne {one other : ℚ × ℚ} {rest : List (ℚ × ℚ)}
    (enough : rest ≠ [])
    (tie : one.1 = other.1 ∧ one.2 ≠ other.2 ∨ one.2 = other.2 ∧ one.1 ≠ other.1) :
    spearmanCorrelation ((other :: one :: rest).map Prod.fst)
        ((other :: one :: rest).map Prod.snd) ≠
      spearmanCorrelation ((one :: other :: rest).map Prod.fst)
        ((one :: other :: rest).map Prod.snd) := by
  have three : 3 ≤ rest.length + 2 := by
    have := List.length_pos_iff.mpr enough
    omega
  let pairs : Fin (rest.length + 2) → ℚ × ℚ := fun place => (one :: other :: rest)[place]
  have listed : one :: other :: rest = List.ofFn pairs := List.ofFn_getElem.symm
  have swapped : other :: one :: rest = List.ofFn (pairs ∘ Equiv.swap 0 1) :=
    cons_cons_eq_ofFn_swap one other rest
  have least : ∀ place : Fin (rest.length + 2), place ≠ 0 → place ≠ 1 →
      0 < place ∧ 1 < place := by
    intro place notFirst notSecond
    have positive : 0 < place.val := Nat.pos_of_ne_zero fun zero => notFirst (Fin.ext zero)
    have apart : 1 ≠ place.val := fun one => notSecond (Fin.ext one.symm)
    have later : 1 < place.val := lt_of_le_of_ne positive apart
    exact ⟨positive, later⟩
  rw [swapped, listed, List.map_ofFn, List.map_ofFn, List.map_ofFn, List.map_ofFn,
    spearmanCorrelation_ofFn three, spearmanCorrelation_ofFn three]
  intro same
  have equal := correlationOf_injective three (Option.some.inj same)
  rcases tie with ⟨tied, apart⟩ | ⟨tied, apart⟩
  · have differ : rankDistance ((Prod.fst ∘ pairs) ∘ Equiv.swap 0 1)
        ((Prod.snd ∘ pairs) ∘ Equiv.swap 0 1) ≠
          rankDistance (Prod.fst ∘ pairs) (Prod.snd ∘ pairs) :=
      rankDistance_swap_ne least tied apart
    exact differ equal
  · have differ : rankDistance ((Prod.snd ∘ pairs) ∘ Equiv.swap 0 1)
        ((Prod.fst ∘ pairs) ∘ Equiv.swap 0 1) ≠
          rankDistance (Prod.snd ∘ pairs) (Prod.fst ∘ pairs) :=
      rankDistance_swap_ne least tied apart
    rw [rankDistance_comm, rankDistance_comm (Prod.fst ∘ pairs)] at differ
    exact differ equal

/-- Where the order of the pairs does not matter, pairs that agree on one side are equal. -/
theorem IsRankCorrelation.agree {xs ys : List ℚ} (correlation : IsRankCorrelation xs ys)
    (same : ys.length = xs.length) (enough : 3 ≤ xs.length) {one other : ℚ × ℚ}
    (member : one ∈ xs.zip ys) (otherMember : other ∈ xs.zip ys) :
    one.1 = other.1 ↔ one.2 = other.2 := by
  by_contra differ
  have apart : other ≠ one := by
    rintro rfl
    exact differ (iff_of_true rfl rfl)
  have behind : other ∈ (xs.zip ys).erase one := (List.mem_erase_of_ne apart).mpr otherMember
  have perm : List.Perm (one :: other :: ((xs.zip ys).erase one).erase other) (xs.zip ys) :=
    ((List.perm_cons_erase behind).symm.cons one).trans (List.perm_cons_erase member).symm
  have long : (((xs.zip ys).erase one).erase other) ≠ [] := by
    intro short
    have length := perm.length_eq
    rw [short, List.length_zip, same, Nat.min_self] at length
    simp only [List.length_cons, List.length_nil] at length
    omega
  have tie : one.1 = other.1 ∧ one.2 ≠ other.2 ∨ one.2 = other.2 ∧ one.1 ≠ other.1 := by
    rcases eq_or_ne one.1 other.1 with tied | distinct
    · exact Or.inl ⟨tied, fun equal => differ (iff_of_true tied equal)⟩
    · refine Or.inr ⟨?_, distinct⟩
      by_contra unequal
      exact differ (iff_of_false distinct unequal)
  refine spearmanCorrelation_swap_ne long tie ?_
  rw [correlation.permuted _ perm, correlation.permuted _ ((List.Perm.swap ..).trans perm)]

/-- Joint ties are seen when the values on one side are negated. -/
theorem IsRankCorrelation.injective (enough : 3 ≤ n)
    (correlation : IsRankCorrelation (List.ofFn x) (List.ofFn y)) :
    Function.Injective x ∧ Function.Injective y := by
  have agree (first second : Fin n) : x first = x second ↔ y first = y second := by
    have member (place : Fin n) : (x place, y place) ∈ (List.ofFn x).zip (List.ofFn y) := by
      rw [zip_ofFn]
      exact List.mem_ofFn.mpr ⟨place, rfl⟩
    exact correlation.agree (by simp) (by simpa using enough) (member first) (member second)
  have shifts : tieShift y = tieShift x := by
    funext place
    simp only [tieShift, tiesBefore, tiesAfter, agree]
  have negated := correlation.negated
  rw [List.map_ofFn, spearmanCorrelation_ofFn enough, spearmanCorrelation_ofFn enough,
    Option.map_some] at negated
  have total := (correlationOf_eq_neg_iff enough _ _).mp (Option.some.inj negated)
  have complement : rankDistance x y + rankDistance x (fun place => -y place) = _ :=
    rankDistance_add_rankDistance x fun _ _ => neg_lt_neg_iff
  have distinct : Function.Injective x := by
    by_contra tied
    have positive := sum_rank_mul_tieShift_pos tied
    rw [← shifts] at positive
    have both := total.symm.trans complement
    rw [Fintype.card_fin] at both
    linarith
  exact ⟨distinct, fun first second same => distinct ((agree first second).mpr same)⟩

/-- The function is a rank correlation of exactly the lists without equal values. -/
theorem isRankCorrelation_iff {xs ys : List ℚ} (same : ys.length = xs.length)
    (enough : 3 ≤ xs.length) : IsRankCorrelation xs ys ↔ xs.Nodup ∧ ys.Nodup := by
  obtain ⟨x, listed⟩ := eq_ofFn (rfl : xs.length = xs.length)
  obtain ⟨y, enlisted⟩ := eq_ofFn same
  generalize xs.length = n at *
  subst listed enlisted
  rw [List.nodup_ofFn, List.nodup_ofFn]
  exact ⟨fun correlation => correlation.injective enough,
    fun distinct => .of_injective enough distinct.1 distinct.2⟩

theorem isRankCorrelation_iff_three :
    IsRankCorrelation [1, 2, 3] [10, 20, 15] ↔
      ([1, 2, 3] : List ℚ).Nodup ∧ ([10, 20, 15] : List ℚ).Nodup :=
  isRankCorrelation_iff rfl (Nat.le_refl 3)

/-- A constant list has the correlation of an increasing one. -/
theorem constant_not_zero :
    ¬∀ xs ys : List ℚ, ys.length = xs.length → 3 ≤ xs.length → IsRankCorrelation xs ys := by
  intro always
  have zero := (always [1, 1, 1] [1, 2, 3] rfl (Nat.le_refl 3)).constant
    (Or.inl ⟨1, by simp⟩)
  have one : spearmanCorrelation [1, 1, 1] [1, 2, 3] = some 1 := by decide +kernel
  rw [one] at zero
  exact one_ne_zero (Option.some.inj zero)

end TradingControl.Learning
