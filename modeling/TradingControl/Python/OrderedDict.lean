import Mathlib.Data.List.Dedup
import Mathlib.Data.List.Perm.Subperm
import TradingControl.Python.Dict
import TradingControl.Python.Window

/-!
# Bounded ordered dictionaries

An ordered dictionary as a cache: a key that is set goes to the end, and the oldest items are
dropped beyond a bound.  While all keys are among few known ones, nothing is dropped.
-/

namespace Python

variable {κ ν : Type} [DecidableEq κ]

namespace Dict

/-- `d.pop(key, None)`, as far as what is left goes. -/
def discard (key : κ) (items : Dict κ ν) : Dict κ ν := items.filter fun item => item.1 ≠ key

/-- `d[key] = value; d.move_to_end(key)`, and `d.popitem(last=False)` while there are too many. -/
def remember (bound : ℕ) (key : κ) (value : ν) (items : Dict κ ν) : Dict κ ν :=
  lastItems bound (discard key items ++ [(key, value)])

theorem lookup_discard (key other : κ) (items : Dict κ ν) :
    (discard key items).lookup other = if other = key then none else items.lookup other := by
  induction items with
  | nil => simp [discard]
  | cons item rest induction =>
      obtain ⟨held, value⟩ := item
      rw [discard] at induction ⊢
      by_cases dropped : held = key
      · rw [List.filter_cons_of_neg (by simp [dropped]), induction]
        by_cases same : other = key
        · simp [same]
        · have differs : other ≠ held := fun equal => same (equal.trans dropped)
          simp [same, List.lookup_cons, beq_false_of_ne differs]
      · rw [List.filter_cons_of_pos (by simp [dropped])]
        by_cases same : other = held
        · subst same
          simp [dropped]
        · simpa [List.lookup_cons, beq_false_of_ne same] using induction

omit [DecidableEq κ] in
theorem lookup_append (key : κ) [DecidableEq κ] (items later : Dict κ ν) :
    (items ++ later).lookup key = (items.lookup key).or (later.lookup key) := by
  induction items with
  | nil => simp
  | cons item rest induction =>
      obtain ⟨held, value⟩ := item
      by_cases same : key = held
      · subst same
        simp
      · simp [List.lookup_cons, beq_false_of_ne same, induction]

/-! ## Caches that drop nothing -/

/-- The keys of a cache are distinct and among the known ones. -/
structure Fits (known : List κ) (items : Dict κ ν) : Prop where
  distinct : (keys items).Nodup
  within : keys items ⊆ known

variable {known : List κ} {items : Dict κ ν}

omit [DecidableEq κ] in
theorem fits_nil : Fits known ([] : Dict κ ν) := ⟨List.nodup_nil, List.nil_subset _⟩

theorem keys_discard_sublist (key : κ) (items : Dict κ ν) :
    (keys (discard key items)).Sublist (keys items) :=
  List.filter_sublist.map Prod.fst

theorem Fits.discard (fits : Fits known items) (key : κ) : Fits known (discard key items) :=
  ⟨fits.distinct.sublist (keys_discard_sublist key items),
    List.Subset.trans (keys_discard_sublist key items).subset fits.within⟩

theorem Fits.concat (fits : Fits known items) {key : κ} (isKnown : key ∈ known) (value : ν) :
    Fits known (Dict.discard key items ++ [(key, value)]) := by
  have others := fits.discard key
  have absent : key ∉ keys (Dict.discard key items) := by
    intro member
    obtain ⟨item, inItems, same⟩ := List.mem_map.mp member
    have kept := (List.mem_filter.mp inItems).2
    simp [same] at kept
  have keys_eq : keys (Dict.discard key items ++ [(key, value)]) =
      keys (Dict.discard key items) ++ [key] := by
    simp [keys]
  constructor
  · rw [keys_eq]
    refine others.distinct.append (List.nodup_singleton key) fun other member isKey => ?_
    exact absent (List.mem_singleton.mp isKey ▸ member)
  · rw [keys_eq]
    exact List.append_subset.mpr ⟨others.within, by simpa using isKnown⟩

theorem Fits.length_le (fits : Fits known items) : items.length ≤ known.dedup.length := by
  have contained : keys items ⊆ known.dedup :=
    fun key member => List.mem_dedup.mpr (fits.within member)
  have few := (List.subperm_of_subset fits.distinct contained).length_le
  rwa [keys, List.length_map] at few

/-- Among few known keys, nothing is dropped. -/
theorem Fits.remember_eq (fits : Fits known items) {key : κ} (isKnown : key ∈ known) {bound : ℕ}
    (few : known.dedup.length ≤ bound) (value : ν) :
    Dict.remember bound key value items = Dict.discard key items ++ [(key, value)] :=
  lastItems_of_length_le (((fits.concat isKnown value).length_le).trans few)

theorem Fits.remember (fits : Fits known items) {key : κ} (isKnown : key ∈ known) {bound : ℕ}
    (few : known.dedup.length ≤ bound) (value : ν) :
    Fits known (Dict.remember bound key value items) := by
  rw [fits.remember_eq isKnown few]
  exact fits.concat isKnown value

theorem Fits.lookup_remember (fits : Fits known items) {key : κ} (isKnown : key ∈ known)
    {bound : ℕ} (few : known.dedup.length ≤ bound) (value : ν) (other : κ) :
    (Dict.remember bound key value items).lookup other =
      if other = key then some value else items.lookup other := by
  rw [fits.remember_eq isKnown few, lookup_append, lookup_discard]
  by_cases same : other = key
  · simp [same]
  · simp [same, List.lookup_cons, beq_false_of_ne same]

end Dict

/-! ## Distinct keys -/

/-- `list(dict.fromkeys(keys))`. -/
def fromKeys : List κ → List κ
  | [] => []
  | key :: rest => key :: (fromKeys rest).filter fun other => other ≠ key

theorem mem_fromKeys {key : κ} {keys : List κ} : key ∈ fromKeys keys ↔ key ∈ keys := by
  induction keys with
  | nil => simp [fromKeys]
  | cons first rest induction =>
      by_cases same : key = first
      · simp [fromKeys, same]
      · simp [fromKeys, same, induction]

theorem nodup_fromKeys (keys : List κ) : (fromKeys keys).Nodup := by
  induction keys with
  | nil => exact List.nodup_nil
  | cons first rest induction =>
      rw [fromKeys, List.nodup_cons]
      exact ⟨by simp, induction.filter _⟩

theorem fromKeys_perm_dedup (keys : List κ) : (fromKeys keys).Perm keys.dedup :=
  (List.perm_ext_iff_of_nodup (nodup_fromKeys keys) (List.nodup_dedup keys)).mpr fun key => by
    rw [mem_fromKeys, List.mem_dedup]

end Python
