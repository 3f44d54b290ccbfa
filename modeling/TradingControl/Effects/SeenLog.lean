import Mathlib.Data.Finset.Basic
import Mathlib.Data.Finset.Insert
import Mathlib.Data.List.Basic
import Mathlib.Data.List.Dedup
import Mathlib.Data.List.Induction
import Mathlib.Data.List.Perm.Subperm

/-!
# Capped logs

A log that drops its oldest item whenever a new one takes it past its cap holds the most recent
items of everything that was ever appended.
-/

namespace CappedLog

variable {α β : Type}

/-- How many of so many items a cap evicts. -/
def evicted (cap : Option ℕ) (count : ℕ) : ℕ :=
  match cap with
  | none => 0
  | some cap => count - cap

/-- The most recent items, as many as the cap allows. -/
def retained (cap : Option ℕ) (sent : List α) : List α := sent.drop (evicted cap sent.length)

/-- The length is past the cap. -/
def Exceeds (cap : Option ℕ) (length : ℕ) : Prop :=
  match cap with
  | none => False
  | some cap => cap < length

instance (cap : Option ℕ) (length : ℕ) : Decidable (Exceeds cap length) := by
  unfold Exceeds
  cases cap <;> infer_instance

theorem evicted_le (cap : Option ℕ) (count : ℕ) : evicted cap count ≤ count := by
  cases cap with
  | none => exact Nat.zero_le count
  | some cap => exact Nat.sub_le count cap

theorem length_retained (cap : Option ℕ) (sent : List α) :
    (retained cap sent).length = sent.length - evicted cap sent.length := by
  simp [retained]

theorem evicted_add_length (cap : Option ℕ) (sent : List α) :
    evicted cap sent.length + (retained cap sent).length = sent.length := by
  rw [length_retained]
  exact Nat.add_sub_cancel' (evicted_le cap sent.length)

theorem length_retained_some (cap : ℕ) (sent : List α) :
    (retained (some cap) sent).length = min sent.length cap := by
  simp only [length_retained, evicted]
  omega

theorem evicted_succ (cap : Option ℕ) (sent : List α) :
    evicted cap (sent.length + 1) = evicted cap sent.length +
      if Exceeds cap ((retained cap sent).length + 1) then 1 else 0 := by
  cases cap with
  | none => simp [evicted, Exceeds]
  | some cap =>
      simp only [Exceeds, length_retained_some, evicted]
      split_ifs <;> omega

/-- Appending to the retained items and dropping one past the cap retains the right ones. -/
theorem retained_append (cap : Option ℕ) (sent : List α) (item : α) :
    retained cap (sent ++ [item]) =
      if Exceeds cap ((retained cap sent).length + 1) then (retained cap sent ++ [item]).tail
      else retained cap sent ++ [item] := by
  have appended : (sent ++ [item]).drop (evicted cap sent.length) = retained cap sent ++ [item] :=
    List.drop_append_of_le_length (evicted_le cap sent.length)
  conv_lhs => rw [retained, List.length_append, List.length_singleton, evicted_succ]
  split_ifs
  · rw [← List.drop_drop, appended, List.drop_one]
  · exact appended

theorem map_retained (cap : Option ℕ) (change : α → β) (sent : List α) :
    (retained cap sent).map change = retained cap (sent.map change) := by
  simp [retained, List.map_drop]

/-- Two lengths of a capped log agree only where nothing was appended or both are at the cap. -/
theorem length_retained_eq_iff (cap : Option ℕ) {sent later : List α}
    (grows : sent.length < later.length) :
    (retained cap sent).length = (retained cap later).length ↔ ∃ limit, cap = some limit ∧
      limit ≤ sent.length := by
  cases cap with
  | none =>
      simp only [length_retained, evicted, Nat.sub_zero, reduceCtorEq, false_and, exists_false,
        iff_false]
      omega
  | some limit =>
      simp only [length_retained_some, Option.some.injEq, exists_eq_left']
      omega

end CappedLog

/-!
# Logs of seen keys

A log records each key the first time it comes and keeps the most recent ones.  It tells every
repetition exactly as long as the distinct keys fit.
-/

namespace SeenLog

variable {κ : Type} [DecidableEq κ]

def record (cap : ℕ) (seen : List κ) (key : κ) : List κ :=
  if key ∈ seen then seen else CappedLog.retained (some cap) (seen ++ [key])

/-- What is on record after keys have come. -/
def seenAfter (cap : ℕ) (keys : List κ) : List κ := keys.foldl (record cap) []

theorem seenAfter_append (cap : ℕ) (keys : List κ) (key : κ) :
    seenAfter cap (keys ++ [key]) = record cap (seenAfter cap keys) key := by
  simp [seenAfter]

theorem length_seenAfter_le (cap : ℕ) (keys : List κ) : (seenAfter cap keys).length ≤ cap := by
  induction keys using List.reverseRecOn with
  | nil => exact Nat.zero_le cap
  | append_singleton keys key induction =>
      rw [seenAfter_append, record]
      split_ifs
      · exact induction
      · rw [CappedLog.length_retained_some]
        exact Nat.min_le_right _ _

theorem mem_of_mem_seenAfter {cap : ℕ} {keys : List κ} {key : κ}
    (member : key ∈ seenAfter cap keys) : key ∈ keys := by
  induction keys using List.reverseRecOn with
  | nil => exact member
  | append_singleton keys last induction =>
      rw [seenAfter_append, record] at member
      split_ifs at member
      · exact List.mem_append_left _ (induction member)
      · rcases List.mem_append.mp (List.mem_of_mem_drop member) with earlier | same
        · exact List.mem_append_left _ (induction earlier)
        · exact List.mem_append_right _ same

theorem mem_record {cap : ℕ} (room : 0 < cap) (seen : List κ) (key : κ) :
    key ∈ record cap seen key := by
  rw [record]
  split_ifs with known
  · exact known
  · have kept : (seen ++ [key]).length - cap ≤ seen.length := by
      rw [List.length_append, List.length_singleton]
      omega
    rw [CappedLog.retained, CappedLog.evicted, List.drop_append_of_le_length kept]
    exact List.mem_append_right _ (List.mem_singleton_self key)

theorem few_of_seen {cap : ℕ} {keys : List κ} (all : ∀ key ∈ keys, key ∈ seenAfter cap keys) :
    keys.dedup.length ≤ cap := by
  have contained : keys.dedup ⊆ seenAfter cap keys :=
    fun key member => all key (List.mem_dedup.mp member)
  exact Nat.le_trans (List.subperm_of_subset (List.nodup_dedup keys) contained).length_le
    (length_seenAfter_le cap keys)

theorem length_dedup_le {first second : List κ} (contained : first ⊆ second) :
    first.dedup.length ≤ second.dedup.length :=
  (List.subperm_of_subset (List.nodup_dedup first) fun _ member =>
    List.mem_dedup.mpr (contained (List.mem_dedup.mp member))).length_le

theorem seenAfter_of_few {cap : ℕ} {keys : List κ} (few : keys.dedup.length ≤ cap) :
    (seenAfter cap keys).Nodup ∧ ∀ key, key ∈ seenAfter cap keys ↔ key ∈ keys := by
  induction keys using List.reverseRecOn with
  | nil => simp [seenAfter]
  | append_singleton keys last induction =>
      have fewer : keys.dedup.length ≤ cap :=
        Nat.le_trans (length_dedup_le (List.subset_append_left keys [last])) few
      obtain ⟨distinct, same⟩ := induction fewer
      rw [seenAfter_append, record]
      split_ifs with known
      · refine ⟨distinct, fun key => (same key).trans ?_⟩
        rw [List.mem_append, List.mem_singleton]
        refine ⟨Or.inl, fun member => member.elim id ?_⟩
        rintro rfl
        exact (same key).mp known
      · have appended : (seenAfter cap keys ++ [last]).Nodup := by
          rw [List.nodup_append]
          refine ⟨distinct, by simp, ?_⟩
          rintro key member other only rfl
          rw [List.mem_singleton] at only
          exact known (only ▸ member)
        have member : ∀ key, key ∈ seenAfter cap keys ++ [last] ↔ key ∈ keys ++ [last] := by
          intro key
          rw [List.mem_append, List.mem_append, same]
        -- the new key takes the log no further than its cap
        have fits : (seenAfter cap keys ++ [last]).length ≤ cap := by
          have contained : seenAfter cap keys ++ [last] ⊆ (keys ++ [last]).dedup :=
            fun key held => List.mem_dedup.mpr ((member key).mp held)
          exact Nat.le_trans (List.subperm_of_subset appended contained).length_le few
        have whole : CappedLog.retained (some cap) (seenAfter cap keys ++ [last]) =
            seenAfter cap keys ++ [last] := by
          rw [CappedLog.retained, CappedLog.evicted, Nat.sub_eq_zero_of_le fits, List.drop_zero]
        rw [whole]
        exact ⟨appended, member⟩

end SeenLog

/-! ## Windows of keys -/

namespace KeyWindow

variable {κ : Type} [DecidableEq κ]

/-- The oldest key leaves the queue and the set while the queue is longer than the cap. -/
def evict (cap : ℕ) : List κ → Finset κ → List κ × Finset κ
  | [], keys => ([], keys)
  | first :: rest, keys =>
      if cap < rest.length + 1 then evict cap rest (keys.erase first) else (first :: rest, keys)

/-- Set and queue hold the same keys, each of them once, and no more than the cap. -/
structure Consistent (cap : ℕ) (order : List κ) (keys : Finset κ) : Prop where
  same : keys = order.toFinset
  distinct : order.Nodup
  bounded : order.length ≤ cap

variable {cap : ℕ} {order : List κ} {keys : Finset κ} {key : κ}

theorem toFinset_erase_cons {first : κ} {rest : List κ} (absent : first ∉ rest) :
    (first :: rest).toFinset.erase first = rest.toFinset := by
  rw [List.toFinset_cons, Finset.erase_insert]
  rwa [List.mem_toFinset]

/-- What is left is the retained end of the queue, and its keys. -/
theorem evict_toFinset (distinct : order.Nodup) :
    evict cap order order.toFinset =
      (CappedLog.retained (some cap) order, (CappedLog.retained (some cap) order).toFinset) := by
  induction order with
  | nil => simp [evict, CappedLog.retained]
  | cons first rest induction =>
      obtain ⟨absent, distinctRest⟩ := List.nodup_cons.mp distinct
      rw [evict]
      split_ifs with long
      · have shorter : CappedLog.retained (some cap) (first :: rest) =
            CappedLog.retained (some cap) rest := by
          rw [CappedLog.retained, CappedLog.retained, CappedLog.evicted, CappedLog.evicted,
            List.length_cons, Nat.sub_add_comm (Nat.lt_succ_iff.mp long), List.drop_succ_cons]
        rw [toFinset_erase_cons absent, induction distinctRest, shorter]
      · have whole : CappedLog.retained (some cap) (first :: rest) = first :: rest := by
          rw [CappedLog.retained, CappedLog.evicted, List.length_cons,
            Nat.sub_eq_zero_of_le (Nat.le_of_not_lt long), List.drop_zero]
        rw [whole]

theorem Consistent.register (consistent : Consistent cap order keys) (absent : key ∉ keys) :
    evict cap (order ++ [key]) (insert key keys) =
        (CappedLog.retained (some cap) (order ++ [key]),
          (CappedLog.retained (some cap) (order ++ [key])).toFinset) ∧
      Consistent cap (CappedLog.retained (some cap) (order ++ [key]))
        (CappedLog.retained (some cap) (order ++ [key])).toFinset := by
  rw [consistent.same, List.mem_toFinset] at absent
  have distinct : (order ++ [key]).Nodup := by
    rw [← List.concat_eq_append]
    exact consistent.distinct.concat absent
  have together : insert key keys = (order ++ [key]).toFinset := by
    ext other
    rw [Finset.mem_insert, consistent.same, List.mem_toFinset, List.mem_toFinset, List.mem_append,
      List.mem_singleton, or_comm]
  refine ⟨by rw [together, evict_toFinset distinct], rfl, ?_, ?_⟩
  · exact distinct.sublist (List.drop_sublist _ _)
  · rw [CappedLog.length_retained_some]
    exact Nat.min_le_right _ _

end KeyWindow
