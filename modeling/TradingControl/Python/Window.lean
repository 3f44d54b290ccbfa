import TradingControl.Python.Runtime

/-!
# The last items of a list

Lists that keep their last items only, as `items = items[-count:]` after every append does.
-/

namespace Python

variable {α β : Type}

theorem length_lastItems_le (count : ℕ) (items : List α) :
    (lastItems count items).length ≤ count := by
  rw [lastItems, List.length_drop]
  omega

theorem lastItems_lastItems {small large : ℕ} (within : small ≤ large) (items : List α) :
    lastItems small (lastItems large items) = lastItems small items := by
  simp only [lastItems, List.length_drop, List.drop_drop]
  congr 1
  omega

theorem lastItems_append_singleton {count : ℕ} (items : List α) (item : α) :
    lastItems count (lastItems count items ++ [item]) = lastItems count (items ++ [item]) := by
  simp only [lastItems, List.length_append, List.length_drop, List.length_singleton]
  rw [← List.drop_append_of_le_length (by omega), List.drop_drop]
  congr 1
  omega

theorem lastItems_succ_append (count : ℕ) (items : List α) (item : α) :
    lastItems (count + 1) (items ++ [item]) = lastItems count items ++ [item] := by
  rw [lastItems, lastItems, List.length_append, List.length_singleton, Nat.add_sub_add_right,
    List.drop_append_of_le_length (Nat.sub_le _ _)]

theorem getLast?_lastItems_append {count : ℕ} (room : 0 < count) (items : List α) (item : α) :
    (lastItems count (items ++ [item])).getLast? = some item := by
  rw [lastItems, List.drop_append_of_le_length (by simp; omega), List.getLast?_append]
  rfl

theorem lastItems_append_left (count : ℕ) (items more : List α) :
    lastItems count (lastItems count items ++ more) = lastItems count (items ++ more) := by
  induction more generalizing items with
  | nil => rw [List.append_nil, List.append_nil, lastItems_lastItems le_rfl]
  | cons item more induction =>
      rw [List.append_cons, ← induction, lastItems_append_singleton, induction, ← List.append_cons]

/-- A full window that new items leave as it is holds some item twice. -/
theorem not_nodup_of_lastItems_append {count : ℕ} {items more : List α} (some : more ≠ [])
    (few : more.length < count) (same : lastItems count (items ++ more) = items) :
    ¬items.Nodup := by
  intro distinct
  have positive : 0 < more.length := List.length_pos_of_ne_nil some
  have full : items.length = count := by
    have lengths := congrArg List.length same
    rw [lastItems, List.length_drop, List.length_append] at lengths
    omega
  have shifted : items.drop more.length ++ more = items := by
    rw [lastItems, List.length_append, full, Nat.add_sub_cancel_left,
      List.drop_append_of_le_length (by omega)] at same
    exact same
  have first : items[0]? = items[more.length]? := by
    conv_lhs => rw [← shifted]
    rw [List.getElem?_append_left (by rw [List.length_drop]; omega), List.getElem?_drop,
      Nat.add_zero]
  have inside : more.length < items.length := by omega
  rw [List.getElem?_eq_getElem (Nat.lt_trans positive inside), List.getElem?_eq_getElem inside,
    Option.some.injEq] at first
  exact List.pairwise_iff_getElem.mp distinct 0 more.length _ inside positive first

theorem lastItems_sublist (count : ℕ) (items : List α) :
    (lastItems count items).Sublist items :=
  List.drop_sublist _ _

theorem lastItems_nil (count : ℕ) : lastItems count ([] : List α) = [] := by
  simp [lastItems]

/-- A larger window shows what a smaller one shows, after items that came before it. -/
theorem lastItems_split {small large : ℕ} (within : small ≤ large) (items : List α) :
    ∃ older, lastItems large items = older ++ lastItems small items ∧
      ∀ item ∈ older, item ∈ items.take (items.length - small) := by
  refine ⟨(items.take (items.length - small)).drop (items.length - large), ?_,
    fun item member => List.mem_of_mem_drop member⟩
  have parts := List.take_append_drop (items.length - small) items
  simp only [lastItems]
  conv_lhs => rw [← parts]
  rw [List.drop_append_of_le_length]
  · rw [parts]
  · rw [List.length_take, parts]
    omega

theorem lastItems_map (count : ℕ) (change : α → β) (items : List α) :
    lastItems count (items.map change) = (lastItems count items).map change := by
  simp [lastItems]

/-- A list that never had more than `count` items is whole. -/
theorem lastItems_of_length_le {count : ℕ} {items : List α} (few : items.length ≤ count) :
    lastItems count items = items := by
  rw [lastItems, Nat.sub_eq_zero_of_le few, List.drop_zero]

theorem lastItems_filter {count : ℕ} {items : List α} {keep : α → Bool}
    (kept : ∀ item ∈ lastItems count items, keep item = true) :
    lastItems count (items.filter keep) = lastItems count items := by
  rcases Nat.lt_or_ge count items.length with many | few
  · have size : (lastItems count items).length = count := by
      rw [lastItems, List.length_drop]
      omega
    have filtered : items.filter keep =
        (items.take (items.length - count)).filter keep ++ lastItems count items := by
      conv_lhs => rw [← List.take_append_drop (items.length - count) items]
      rw [List.filter_append]
      congr 1
      exact List.filter_eq_self.mpr kept
    rw [filtered]
    nth_rewrite 1 [lastItems]
    rw [List.length_append, size, Nat.add_sub_cancel, List.drop_left]
  · rw [lastItems_of_length_le few] at kept ⊢
    rw [List.filter_eq_self.mpr kept, lastItems_of_length_le few]

/-- A window as large as the list shows all of it. -/
theorem lastItems_min_length (count : ℕ) (items : List α) :
    lastItems (min items.length count) items = lastItems count items := by
  rw [lastItems, lastItems]
  congr 1
  omega

/-- Appended one at a time, the list holds the last of all of them. -/
theorem foldl_lastItems (count : ℕ) (item : β → α) (later : List β) (items : List α) :
    later.foldl (fun kept next => lastItems count (kept ++ [item next])) (lastItems count items) =
      lastItems count (items ++ later.map item) := by
  induction later generalizing items with
  | nil => simp
  | cons next later induction =>
      rw [List.foldl_cons, lastItems_append_singleton, induction, List.map_cons,
        List.append_assoc, List.singleton_append]

end Python
