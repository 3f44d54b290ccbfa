import Mathlib.Data.List.Dedup
import Mathlib.Data.List.Induction
import Mathlib.Data.List.Perm.Subperm
import TradingControl.Python.Window

/-!
# Least recently used keys

A log of keys that moves a key to the end whenever it comes, and drops the oldest keys beyond a cap.
It holds the last distinct keys, so it knows a key again until as many others as the cap have come.
-/

namespace Recency

open Python

variable {κ : Type} [DecidableEq κ]

/-- A key comes: whether it is on record, and the record after it. -/
def touch (cap : ℕ) (seen : List κ) (key : κ) : Bool × List κ :=
  if key ∈ seen then (true, seen.erase key ++ [key]) else (false, lastItems cap (seen ++ [key]))

def record (cap : ℕ) (keys : List κ) : List κ :=
  keys.foldl (fun seen key => (touch cap seen key).2) []

theorem record_concat (cap : ℕ) (keys : List κ) (key : κ) :
    record cap (keys ++ [key]) = (touch cap (record cap keys) key).2 := by
  simp [record]

/-- A key that comes again is the most recent one. -/
theorem dedup_concat (keys : List κ) (key : κ) :
    (keys ++ [key]).dedup = keys.dedup.erase key ++ [key] := by
  induction keys with
  | nil => rfl
  | cons first keys induction =>
      rw [List.cons_append]
      by_cases again : first ∈ keys
      · rw [List.dedup_cons_of_mem (List.mem_append_left _ again), induction,
          List.dedup_cons_of_mem again]
      · rw [List.dedup_cons_of_notMem again]
        by_cases same : first = key
        · subst same
          rw [List.dedup_cons_of_mem (List.mem_append_right _ List.mem_cons_self), induction,
            List.erase_cons_head, List.erase_of_not_mem (List.mem_dedup.not.mpr again)]
        · have absent : first ∉ keys ++ [key] := by simp [again, same]
          rw [List.dedup_cons_of_notMem absent, induction, List.erase_cons_tail (by simpa using same),
            List.cons_append]

theorem lastItems_append_of_le {α : Type} {cap : ℕ} (older : List α) {recent : List α}
    (full : cap ≤ recent.length) : lastItems cap (older ++ recent) = lastItems cap recent := by
  have skipped : (older ++ recent).length - cap = older.length + (recent.length - cap) := by
    rw [List.length_append]
    omega
  rw [lastItems, skipped, List.drop_length_add_append, lastItems]

/-- Moving a key to the end, in the window of the last keys. -/
theorem lastItems_erase_concat {cap : ℕ} {keys : List κ} (distinct : keys.Nodup) (key : κ) :
    lastItems cap (keys.erase key ++ [key]) =
      if key ∈ lastItems cap keys then (lastItems cap keys).erase key ++ [key]
      else lastItems cap (lastItems cap keys ++ [key]) := by
  obtain ⟨older, recent, rfl, size, same⟩ : ∃ older recent, keys = older ++ recent ∧
      older.length = keys.length - cap ∧ lastItems cap keys = recent :=
    ⟨keys.take (keys.length - cap), lastItems cap keys, (List.take_append_drop _ _).symm,
      by rw [List.length_take]; omega, rfl⟩
  rw [same]
  rw [List.length_append] at size
  split_ifs with held
  · have fresh : key ∉ older := fun early =>
      (List.nodup_append.mp distinct).2.2 key early key held rfl
    have kept : (recent.erase key ++ [key]).length = recent.length := by
      have positive := List.length_pos_of_mem held
      rw [List.length_append, List.length_erase_of_mem held, List.length_singleton]
      omega
    rw [List.erase_append_right _ fresh, List.append_assoc, lastItems, List.length_append, kept,
      ← size, List.drop_left]
  · by_cases early : key ∈ older
    · have positive := List.length_pos_of_mem early
      have full : cap ≤ (recent ++ [key]).length := by
        rw [List.length_append]
        omega
      rw [List.erase_append_left _ early, List.append_assoc, lastItems_append_of_le _ full]
    · have absent : key ∉ older ++ recent := by simp [early, held]
      rw [List.erase_of_not_mem absent, ← lastItems_append_singleton, same]

theorem record_eq (cap : ℕ) (keys : List κ) : record cap keys = lastItems cap keys.dedup := by
  induction keys using List.reverseRecOn with
  | nil => simp [record, lastItems]
  | append_singleton keys key induction =>
      rw [record_concat, induction, dedup_concat, touch,
        lastItems_erase_concat (List.nodup_dedup keys)]
      split_ifs <;> rfl

/-- A key is known again until as many others as the cap have come. -/
theorem mem_record_iff (cap : ℕ) (before : List κ) {key : κ} {between : List κ}
    (last : key ∉ between) :
    key ∈ record cap (before ++ key :: between) ↔ between.dedup.length < cap := by
  obtain ⟨older, split⟩ : (key :: between).dedup <:+ (before ++ key :: between).dedup := by
    rw [List.dedup_append]
    exact List.suffix_union_right _ _
  rw [List.dedup_cons_of_notMem last] at split
  have absent : key ∉ between.dedup := List.mem_dedup.not.mpr last
  rw [record_eq, ← split, lastItems, List.length_append, List.length_cons]
  by_cases room : between.dedup.length < cap
  · have inside : older.length + (between.dedup.length + 1) - cap ≤ older.length := by omega
    rw [List.drop_append_of_le_length inside]
    exact iff_of_true (List.mem_append_right _ List.mem_cons_self) room
  · have beyond : older.length + (between.dedup.length + 1) - cap =
        older.length + ((between.dedup.length - cap) + 1) := by omega
    rw [beyond, List.drop_length_add_append, List.drop_succ_cons]
    exact iff_of_false (fun held => absent (List.mem_of_mem_drop held)) room

theorem mem_of_mem_record {cap : ℕ} {keys : List κ} {key : κ} (held : key ∈ record cap keys) :
    key ∈ keys := by
  rw [record_eq] at held
  exact List.mem_dedup.mp ((lastItems_sublist cap _).subset held)

/-! ## Events that pass once -/

variable {α : Type} {cap : ℕ} {key : α → Option κ}

/-- The events that pass: those without a key, and those whose key is not on record. -/
def passed (cap : ℕ) (key : α → Option κ) : List κ → List α → List α
  | _, [] => []
  | seen, event :: events =>
      match key event with
      | none => event :: passed cap key seen events
      | some held =>
          let (known, later) := touch cap seen held
          if known then passed cap key later events else event :: passed cap key later events

/-- Keys come again while they are on record: between two copies there are fewer others than the
cap. -/
def Near (cap : ℕ) (keys : List κ) : Prop :=
  ∀ before held between after, keys = before ++ held :: (between ++ held :: after) →
    held ∉ between → between.dedup.length < cap

theorem Near.of_append {keys more : List κ} (near : Near cap (keys ++ more)) : Near cap keys := by
  intro before held between after split
  refine near before held between (after ++ more) ?_
  rw [split]
  simp

theorem passed_append (seen : List κ) (events more : List α) :
    passed cap key seen (events ++ more) = passed cap key seen events ++
      passed cap key ((events.filterMap key).foldl (fun seen key => (touch cap seen key).2) seen)
        more := by
  induction events generalizing seen with
  | nil => rfl
  | cons event events induction =>
      rw [List.cons_append, passed, passed]
      cases keyed : key event with
      | none =>
          rw [List.filterMap_cons_none keyed]
          exact congrArg (event :: ·) (induction seen)
      | some held =>
          rw [List.filterMap_cons_some keyed, List.foldl_cons]
          dsimp only
          split_ifs
          · exact induction _
          · exact congrArg (event :: ·) (induction _)

theorem mem_of_mem_passed {seen : List κ} {events : List α} {event : α}
    (member : event ∈ passed cap key seen events) : event ∈ events := by
  induction events generalizing seen with
  | nil => exact member
  | cons first events induction =>
      rw [passed] at member
      cases keyed : key first with
      | none =>
          rw [keyed] at member
          rcases List.mem_cons.mp member with rfl | later
          · exact List.mem_cons_self
          · exact List.mem_cons_of_mem _ (induction later)
      | some held =>
          rw [keyed] at member
          dsimp only at member
          split_ifs at member
          · exact List.mem_cons_of_mem _ (induction member)
          · rcases List.mem_cons.mp member with rfl | later
            · exact List.mem_cons_self
            · exact List.mem_cons_of_mem _ (induction later)

theorem passed_concat (events : List α) (event : α) :
    passed cap key [] (events ++ [event]) = passed cap key [] events ++
      if ∃ held ∈ key event, held ∈ record cap (events.filterMap key) then [] else [event] := by
  rw [passed_append]
  refine congrArg (passed cap key [] events ++ ·) ?_
  rw [← record, passed]
  cases keyed : key event with
  | none => simp [passed]
  | some held =>
      by_cases known : held ∈ record cap (events.filterMap key)
      · simp [touch, known, passed]
      · simp [touch, known, passed]

omit [DecidableEq κ] in
theorem split_last {keys : List κ} {held : κ} (member : held ∈ keys) :
    ∃ before between, keys = before ++ held :: between ∧ held ∉ between := by
  obtain ⟨after, earlier, split, last⟩ := List.eq_append_cons_of_mem (List.mem_reverse.mpr member)
  refine ⟨earlier.reverse, after.reverse, ?_, List.mem_reverse.not.mpr last⟩
  rw [← List.reverse_reverse keys, split]
  simp

/-- Where keys come again in time, the record knows all of them. -/
theorem mem_record_of_near {keys : List κ} {held : κ} (near : Near cap (keys ++ [held])) :
    held ∈ record cap keys ↔ held ∈ keys := by
  refine ⟨mem_of_mem_record, fun member => ?_⟩
  obtain ⟨before, between, rfl, last⟩ := split_last member
  rw [mem_record_iff cap before last]
  exact near before held between [] (by simp) last

/-- Where keys come again in time, an event passes exactly if its key has not come before. -/
theorem passed_concat_of_near {events : List α} {event : α} {held : κ}
    (keyed : key event = some held) (near : Near cap ((events ++ [event]).filterMap key)) :
    passed cap key [] (events ++ [event]) = passed cap key [] events ++
      if held ∈ events.filterMap key then [] else [event] := by
  have last : (events ++ [event]).filterMap key = events.filterMap key ++ [held] := by
    rw [List.filterMap_append, List.filterMap_cons_some keyed, List.filterMap_nil]
  rw [last] at near
  rw [passed_concat]
  refine congrArg (passed cap key [] events ++ ·) (if_congr ?_ rfl rfl)
  rw [keyed]
  constructor
  · rintro ⟨_, ⟨⟩, recorded⟩
    exact (mem_record_of_near near).mp recorded
  · exact fun member => ⟨held, rfl, (mem_record_of_near near).mpr member⟩

theorem filter_passed_eq (seen : List κ) (events : List α) :
    (passed cap key seen events).filter (fun event => (key event).isNone) =
      events.filter fun event => (key event).isNone := by
  induction events generalizing seen with
  | nil => rfl
  | cons event events induction =>
      rw [passed]
      cases keyed : key event with
      | none => simp [keyed, induction]
      | some held =>
          dsimp only
          split_ifs <;> simp [keyed, induction]

/-- Where keys come again in time, every key passes exactly once. -/
theorem countP_passed (events : List α) (near : Near cap (events.filterMap key)) {held : κ}
    (member : held ∈ events.filterMap key) :
    (passed cap key [] events).countP (fun event => key event = some held) = 1 := by
  suffices counted : (passed cap key [] events).countP (fun event => key event = some held) =
      if held ∈ events.filterMap key then 1 else 0 by
    rw [counted, if_pos member]
  clear member
  induction events using List.reverseRecOn with
  | nil => rfl
  | append_singleton events event induction =>
      have earlier : Near cap (events.filterMap key) := by
        rw [List.filterMap_append] at near
        exact near.of_append
      cases keyed : key event with
      | none =>
          rw [passed_concat, List.countP_append, induction earlier]
          simp [keyed]
      | some own =>
          rw [passed_concat_of_near keyed near, List.countP_append, induction earlier]
          rw [List.filterMap_append, List.filterMap_cons_some keyed, List.filterMap_nil]
          by_cases same : own = held
          · subst same
            by_cases before : own ∈ events.filterMap key
            · simp [before]
            · simp [before, keyed]
          · have other : held ≠ own := Ne.symm same
            by_cases before : own ∈ events.filterMap key
            · simp [before, other]
            · simp [before, keyed, other, same]

theorem length_dedup_map_le {κ' : Type} [DecidableEq κ'] (change : κ → κ') (keys : List κ) :
    (keys.map change).dedup.length ≤ keys.dedup.length := by
  have contained : (keys.map change).dedup ⊆ keys.dedup.map change := by
    intro changed member
    obtain ⟨held, inside, rfl⟩ := List.mem_map.mp (List.mem_dedup.mp member)
    exact List.mem_map_of_mem (List.mem_dedup.mpr inside)
  have fewer := (List.subperm_of_subset (List.nodup_dedup _) contained).length_le
  rwa [List.length_map] at fewer

end Recency
