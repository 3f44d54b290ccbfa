import Mathlib.Data.List.Basic

/-!
# Merging into the first match

A log of rows where a new record is merged into the first row that it matches.
-/

namespace MergeFirst

variable {ρ σ : Type}

def mergeFirst (matching : ρ → Bool) (merge : ρ → ρ) : List ρ → Option (List ρ)
  | [] => none
  | row :: rest =>
      if matching row then some (merge row :: rest)
      else (mergeFirst matching merge rest).map (row :: ·)

variable {matching : ρ → Bool} {merge : ρ → ρ} {rows : List ρ}

theorem mergeFirst_eq_none : mergeFirst matching merge rows = none ↔
    ∀ row ∈ rows, matching row = false := by
  induction rows with
  | nil => simp [mergeFirst]
  | cons row rest induction =>
      by_cases found : matching row = true
      · simp [mergeFirst, found]
      · simp [mergeFirst, found, induction]

theorem mergeFirst_eq_some {merged : List ρ}
    (found : mergeFirst matching merge rows = some merged) :
    ∃ before row after, rows = before ++ row :: after ∧ matching row = true ∧
      (∀ other ∈ before, matching other = false) ∧ merged = before ++ merge row :: after := by
  induction rows generalizing merged with
  | nil => cases found
  | cons row rest induction =>
      rw [mergeFirst] at found
      by_cases first : matching row = true
      · rw [if_pos first, Option.some.injEq] at found
        exact ⟨[], row, rest, rfl, first, by simp, found.symm⟩
      · rw [if_neg first] at found
        obtain ⟨later, mergedLater, rfl⟩ := Option.map_eq_some_iff.mp found
        obtain ⟨before, other, after, rfl, isMatch, none, rfl⟩ := induction mergedLater
        refine ⟨row :: before, other, after, rfl, isMatch, ?_, rfl⟩
        intro earlier member
        rcases List.mem_cons.mp member with rfl | inside
        · exact Bool.not_eq_true _ ▸ first
        · exact none earlier inside

theorem map_mergeFirst (observe : ρ → σ) {observedMatching : σ → Bool} {observedMerge : σ → σ}
    (same : ∀ row ∈ rows, matching row = observedMatching (observe row))
    (merges : ∀ row ∈ rows, observe (merge row) = observedMerge (observe row)) :
    (mergeFirst matching merge rows).map (List.map observe) =
      mergeFirst observedMatching observedMerge (rows.map observe) := by
  induction rows with
  | nil => rfl
  | cons row rest induction =>
      have later := induction (fun other member => same other (List.mem_cons_of_mem _ member))
        fun other member => merges other (List.mem_cons_of_mem _ member)
      rw [List.map_cons, mergeFirst, mergeFirst, ← same row List.mem_cons_self, ← later]
      by_cases found : matching row = true
      · simp [found, merges row List.mem_cons_self]
      · rw [if_neg found, if_neg found, Option.map_map, Option.map_map]
        rfl

end MergeFirst
