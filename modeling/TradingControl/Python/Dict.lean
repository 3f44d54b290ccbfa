import Mathlib.Data.List.Basic

/-!
# Python dictionaries

A dictionary is the list of its items in insertion order.  Assigning to a key it has keeps the place
of the key.
-/

namespace Python

/-- Items of a dictionary in insertion order. -/
abbrev Dict (κ ν : Type) := List (κ × ν)

namespace Dict

variable {κ ν : Type} [DecidableEq κ]

/-- `d[key] = value`. -/
def set (key : κ) (value : ν) : Dict κ ν → Dict κ ν
  | [] => [(key, value)]
  | (held, old) :: rest =>
      if held = key then (held, value) :: rest else (held, old) :: set key value rest

/-- Change the object held under a key in place. -/
def modify (key : κ) (change : ν → ν) (items : Dict κ ν) : Dict κ ν :=
  items.map fun (held, value) => (held, if held = key then change value else value)

/-- `list(d.keys())`. -/
def keys (items : Dict κ ν) : List κ := items.map Prod.fst

theorem lookup_set (key other : κ) (value : ν) (items : Dict κ ν) :
    (set key value items).lookup other = if other = key then some value else items.lookup other := by
  induction items with
  | nil => by_cases same : other = key <;> simp [set, List.lookup_cons, same, beq_false_of_ne]
  | cons item rest induction =>
      obtain ⟨held, old⟩ := item
      by_cases found : held = key
      · subst found
        by_cases same : other = held <;> simp [set, List.lookup_cons, same, beq_false_of_ne]
      · by_cases same : other = held
        · subst same
          simp [set, found]
        · simp [set, found, List.lookup_cons, beq_false_of_ne same, induction]

@[simp] theorem lookup_modify (key other : κ) (change : ν → ν) (items : Dict κ ν) :
    (modify key change items).lookup other =
      if other = key then (items.lookup other).map change else items.lookup other := by
  induction items with
  | nil => by_cases same : other = key <;> simp [modify, same]
  | cons item rest induction =>
      obtain ⟨held, value⟩ := item
      rw [modify] at induction ⊢
      by_cases found : other = held
      · subst found
        by_cases same : other = key <;> simp [same]
      · simp [List.lookup_cons, beq_false_of_ne found, induction]

@[simp] theorem keys_modify (key : κ) (change : ν → ν) (items : Dict κ ν) :
    keys (modify key change items) = keys items := by
  simp [keys, modify, Function.comp_def]

theorem set_of_not_mem {key : κ} (value : ν) {items : Dict κ ν} (absent : key ∉ keys items) :
    set key value items = items ++ [(key, value)] := by
  induction items with
  | nil => rfl
  | cons item rest induction =>
      obtain ⟨held, old⟩ := item
      simp only [keys, List.map_cons, List.mem_cons, not_or] at absent
      simp [set, Ne.symm absent.1, induction absent.2]

theorem keys_set_of_mem {key : κ} (value : ν) {items : Dict κ ν} (member : key ∈ keys items) :
    keys (set key value items) = keys items := by
  induction items with
  | nil => cases member
  | cons item rest induction =>
      obtain ⟨held, old⟩ := item
      by_cases same : held = key
      · simp [set, same, keys]
      · have later : key ∈ keys rest := by
          simpa [keys, Ne.symm same] using member
        have kept := induction later
        simp only [keys] at kept ⊢
        simp [set, same, kept]

omit [DecidableEq κ] in
theorem mem_keys_of_mem {key : κ} {value : ν} {items : Dict κ ν} (member : (key, value) ∈ items) :
    key ∈ keys items :=
  List.mem_map_of_mem member

theorem mem_of_lookup {key : κ} {value : ν} {items : Dict κ ν}
    (found : items.lookup key = some value) : (key, value) ∈ items := by
  induction items with
  | nil => simp at found
  | cons item rest induction =>
      obtain ⟨held, old⟩ := item
      by_cases same : key = held
      · subst same
        simp at found
        simp [found]
      · simp [List.lookup_cons, beq_false_of_ne same] at found
        exact List.mem_cons_of_mem _ (induction found)

theorem lookup_of_mem {key : κ} {value : ν} {items : Dict κ ν} (distinct : (keys items).Nodup)
    (member : (key, value) ∈ items) : items.lookup key = some value := by
  induction items with
  | nil => simp at member
  | cons item rest induction =>
      obtain ⟨held, old⟩ := item
      simp only [keys, List.map_cons, List.nodup_cons] at distinct
      rcases List.mem_cons.mp member with same | later
      · obtain ⟨rfl, rfl⟩ := Prod.mk.inj same
        simp
      · have other : key ≠ held := by
          rintro rfl
          exact distinct.1 (mem_keys_of_mem later)
        simp [List.lookup_cons, beq_false_of_ne other, induction distinct.2 later]

theorem mem_of_mem_set {key : κ} {value : ν} {items : Dict κ ν} {entry : κ × ν}
    (member : entry ∈ set key value items) : entry = (key, value) ∨ entry ∈ items := by
  induction items with
  | nil => exact .inl (List.mem_singleton.mp member)
  | cons item rest induction =>
      obtain ⟨held, old⟩ := item
      rw [set] at member
      split_ifs at member with same
      · rcases List.mem_cons.mp member with rfl | later
        · exact .inl (by rw [same])
        · exact .inr (List.mem_cons_of_mem _ later)
      · rcases List.mem_cons.mp member with rfl | later
        · exact .inr List.mem_cons_self
        · exact (induction later).imp_right (List.mem_cons_of_mem _)

theorem nodup_set (key : κ) (value : ν) {items : Dict κ ν} (distinct : (keys items).Nodup) :
    (keys (set key value items)).Nodup := by
  by_cases member : key ∈ keys items
  · rwa [keys_set_of_mem value member]
  · rw [set_of_not_mem value member, keys, List.map_append]
    refine List.nodup_append.mpr ⟨distinct, by simp, ?_⟩
    intro held found other only same
    rw [List.map_singleton, List.mem_singleton] at only
    rw [same, only] at found
    exact member found

/-- `{**items, **others}`. -/
def update (items others : Dict κ ν) : Dict κ ν :=
  others.foldl (fun held (key, value) => set key value held) items

/-- The right dictionary of an update wins. -/
theorem lookup_update (key : κ) (items : Dict κ ν) {others : Dict κ ν}
    (distinct : (keys others).Nodup) :
    (update items others).lookup key = (others.lookup key).or (items.lookup key) := by
  induction others generalizing items with
  | nil => rfl
  | cons item others induction =>
      obtain ⟨held, value⟩ := item
      rw [keys, List.map_cons, List.nodup_cons] at distinct
      have step : update items ((held, value) :: others) = update (set held value items) others :=
        rfl
      rw [step, induction _ distinct.2, lookup_set]
      by_cases same : key = held
      · subst same
        have absent : others.lookup key = none := by
          rw [List.lookup_eq_none_iff]
          rintro ⟨other, found⟩ member
          rw [bne_iff_ne]
          rintro rfl
          exact distinct.1 (mem_keys_of_mem member)
        simp [absent]
      · simp [List.lookup_cons, same, beq_false_of_ne same]

theorem lookup_map_value {ν' : Type} (change : ν → ν') (key : κ) (items : Dict κ ν) :
    (items.map fun item => (item.1, change item.2)).lookup key =
      (items.lookup key).map change := by
  induction items with
  | nil => rfl
  | cons item rest induction =>
      obtain ⟨held, value⟩ := item
      by_cases same : key = held
      · subst same
        simp
      · simp [List.lookup_cons, beq_false_of_ne same, induction]

end Dict

/-! ## Counters -/

variable {κ : Type} [DecidableEq κ]

/-- `counts[key] += 1`. -/
def countKey (counts : Dict κ ℕ) (key : κ) : Dict κ ℕ :=
  Dict.set key ((counts.lookup key).getD 0 + 1) counts

/-- `Counter(keys)`. -/
def counter (keys : List κ) : Dict κ ℕ := keys.foldl countKey []

theorem getD_lookup_foldl_countKey (keys : List κ) (counts : Dict κ ℕ) (key : κ) :
    ((keys.foldl countKey counts).lookup key).getD 0 =
      (counts.lookup key).getD 0 + keys.count key := by
  induction keys generalizing counts with
  | nil => rfl
  | cons first keys induction =>
      rw [List.foldl_cons, induction, countKey, Dict.lookup_set, List.count_cons]
      by_cases same : key = first
      · subst same
        simp only [if_pos, Option.getD_some, beq_self_eq_true]
        omega
      · rw [if_neg same, if_neg (by simpa using Ne.symm same), Nat.add_zero]

theorem getD_lookup_counter (keys : List κ) (key : κ) :
    ((counter keys).lookup key).getD 0 = keys.count key := by
  rw [counter, getD_lookup_foldl_countKey]
  exact Nat.zero_add _

end Python
