import Mathlib.Data.List.Dedup
import Mathlib.Data.List.Range
import TradingControl.Python.Reference
import TradingControl.Reasoning.ReasoningAgent

/-!
# Planning of the strategy proposer

`_plan_and_rank` lets a model rank the strong hypotheses.  The ranked ones come first and the ones
that the ranking leaves out after them; an index that comes twice brings its hypothesis in twice.
-/

namespace TradingControl.Strategy

open Python

variable {Hypothesis : Type}

/-! ## The plan -/

/-- The integer that an entry of the ranking is; a truth value is one too. -/
def asIndex : Value → Option ℤ
  | .bool value => some (if value then 1 else 0)
  | .int value => some value
  | _ => none

/-- `plan.get("ranked_indices", [])`. -/
def rankedIndices (interpreter : Interpreter) (rawText : String) : Except Raised Value := do
  let plan ← Json.loads interpreter.toRuntime interpreter.depth (Reasoning.unfence rawText)
  return ((← plan.entries).lookup "ranked_indices").getD (.list [])

/-- The ranking, unless it is empty or holds something other than integers. -/
def ranking (interpreter : Interpreter) (rawText : String) : Option (List ℤ) :=
  match rankedIndices interpreter rawText with
  | .ok value =>
      if value.truthy then
        match value.items with
        | .ok items => items.mapM asIndex
        | .error _ => none
      else none
  | .error _ => none

/-- `0 <= i < len(strong)`. -/
def inRange (count : ℕ) (index : ℤ) : Bool := 0 ≤ index && index < count

/-- `[strong[i] for i in ranked_indices if 0 <= i < len(strong)]`. -/
def reordered (strong : List Hypothesis) (rankedIndices : List ℤ) : List Hypothesis :=
  (rankedIndices.filter (inRange strong.length)).filterMap fun index => strong[index.toNat]?

/-- `[h for i, h in enumerate(strong) if i not in ranked_set]`. -/
def remainder (strong : List Hypothesis) (rankedIndices : List ℤ) : List Hypothesis :=
  (strong.zipIdx.filter fun entry => (entry.2 : ℤ) ∉ rankedIndices).map Prod.fst

/-- `_plan_and_rank`; without a reply the call of the model or its prompt failed. -/
def planAndRank (interpreter : Interpreter) (strong : List Hypothesis) (reply : Option String) :
    List Hypothesis :=
  match reply.bind (ranking interpreter) with
  | some rankedIndices =>
      let result := reordered strong rankedIndices ++ remainder strong rankedIndices
      if result.isEmpty then strong else result
  | none => strong

/-- No two entries of the ranking name the same hypothesis. -/
def NamesOnce (interpreter : Interpreter) (count : ℕ) (reply : Option String) : Prop :=
  ∀ rankedIndices ∈ reply.bind (ranking interpreter), (rankedIndices.filter (inRange count)).Nodup

/-! ## Positions -/

theorem listed_append_others {count : ℕ} {listed : List ℕ} (distinct : listed.Nodup)
    (within : ∀ position ∈ listed, position < count) :
    (listed ++ (List.range count).filter (· ∉ listed)).Perm (List.range count) := by
  have others : ((List.range count).filter (· ∉ listed)).Nodup := List.nodup_range.filter _
  have apart : List.Disjoint listed ((List.range count).filter (· ∉ listed)) := by
    intro position member other
    simpa [member] using (List.mem_filter.mp other).2
  refine (List.perm_ext_iff_of_nodup (distinct.append others apart) List.nodup_range).mpr ?_
  intro position
  simp only [List.mem_append, List.mem_filter, List.mem_range, decide_eq_true_eq]
  constructor
  · rintro (member | ⟨bound, -⟩)
    · exact within position member
    · exact bound
  · intro bound
    exact or_iff_not_imp_left.mpr fun other => ⟨bound, other⟩

/-- Exactly a list without repetitions leaves as many others as there are other positions. -/
theorem nodup_of_length {count : ℕ} {listed : List ℕ}
    (within : ∀ position ∈ listed, position < count)
    (length : listed.length + ((List.range count).filter (· ∉ listed)).length = count) :
    listed.Nodup := by
  have whole := (listed_append_others listed.nodup_dedup
    fun position member => within position (List.mem_dedup.mp member)).length_eq
  simp only [List.mem_dedup, List.length_append, List.length_range] at whole
  have same : listed.dedup = listed :=
    (List.dedup_sublist listed).eq_of_length (by omega)
  exact List.dedup_eq_self.mp same

/-! ## The result -/

variable {strong : List Hypothesis} {rankedIndices : List ℤ}

def positions (count : ℕ) (rankedIndices : List ℤ) : List ℕ :=
  (rankedIndices.filter (inRange count)).map Int.toNat

theorem inRange_iff {count : ℕ} {index : ℤ} :
    inRange count index = true ↔ 0 ≤ index ∧ index < count := by
  simp [inRange]

theorem mem_positions {count position : ℕ} :
    position ∈ positions count rankedIndices ↔
      position < count ∧ (position : ℤ) ∈ rankedIndices := by
  simp only [positions, List.mem_map, List.mem_filter, inRange_iff]
  constructor
  · rintro ⟨index, ⟨member, nonneg, bound⟩, rfl⟩
    have whole : (index.toNat : ℤ) = index := Int.toNat_of_nonneg nonneg
    rw [whole]
    exact ⟨by omega, member⟩
  · rintro ⟨bound, member⟩
    exact ⟨position, ⟨member, by omega, by omega⟩, by omega⟩

theorem positions_nodup_iff {count : ℕ} :
    (positions count rankedIndices).Nodup ↔ (rankedIndices.filter (inRange count)).Nodup := by
  refine ⟨List.Nodup.of_map _, fun distinct => distinct.map_on ?_⟩
  intro first member second otherMember same
  have nonneg := (inRange_iff.mp (List.mem_filter.mp member).2).1
  have otherNonneg := (inRange_iff.mp (List.mem_filter.mp otherMember).2).1
  omega

theorem reordered_eq :
    reordered strong rankedIndices =
      (positions strong.length rankedIndices).filterMap (strong[·]?) := by
  rw [reordered, positions, List.filterMap_map]
  rfl

theorem kept_eq (keep : ℕ → Bool) (rest : List Hypothesis) (front : List Hypothesis) :
    ((rest.zipIdx front.length).filter fun entry => keep entry.2).map Prod.fst =
      ((List.range' front.length rest.length).filter keep).filterMap ((front ++ rest)[·]?) := by
  induction rest generalizing front with
  | nil => rfl
  | cons head rest induction =>
      have here : (front ++ head :: rest)[front.length]? = some head := by simp
      have after := induction (front ++ [head])
      rw [List.append_assoc, List.length_append, List.length_singleton, List.singleton_append]
        at after
      rw [List.zipIdx_cons, List.length_cons, List.range'_succ, List.filter_cons, List.filter_cons]
      by_cases kept : keep front.length
      · rw [if_pos kept, if_pos kept, List.map_cons, List.filterMap_cons, here, after]
      · rw [if_neg kept, if_neg kept, after]

theorem remainder_eq :
    remainder strong rankedIndices =
      ((List.range strong.length).filter (· ∉ positions strong.length rankedIndices)).filterMap
        (strong[·]?) := by
  have kept := kept_eq (fun position => (position : ℤ) ∉ rankedIndices) strong []
  rw [List.length_nil, List.nil_append, ← List.range_eq_range'] at kept
  rw [remainder, kept]
  congr 1
  refine List.filter_congr fun position member => ?_
  simp [mem_positions, List.mem_range.mp member]

theorem filterMap_range (strong : List Hypothesis) :
    (List.range strong.length).filterMap (strong[·]?) = strong := by
  have kept := kept_eq (fun _ => true) strong []
  rw [List.length_nil, List.nil_append, ← List.range_eq_range'] at kept
  simpa using kept.symm

theorem length_filterMap {listed : List ℕ}
    (within : ∀ position ∈ listed, position < strong.length) :
    (listed.filterMap (strong[·]?)).length = listed.length := by
  induction listed with
  | nil => rfl
  | cons position listed induction =>
      have here := within position List.mem_cons_self
      rw [List.filterMap_cons, List.getElem?_eq_getElem here, List.length_cons, List.length_cons,
        induction fun other member => within other (List.mem_cons_of_mem _ member)]

/-- The ranked hypotheses and the remainder are all of them exactly where no index of one comes
twice. -/
theorem result_perm_iff :
    (reordered strong rankedIndices ++ remainder strong rankedIndices).Perm strong ↔
      (rankedIndices.filter (inRange strong.length)).Nodup := by
  have within : ∀ position ∈ positions strong.length rankedIndices, position < strong.length :=
    fun position member => (mem_positions.mp member).1
  have others : ∀ position ∈ (List.range strong.length).filter
      (· ∉ positions strong.length rankedIndices), position < strong.length :=
    fun position member => List.mem_range.mp (List.mem_filter.mp member).1
  rw [← positions_nodup_iff, reordered_eq, remainder_eq]
  constructor
  · intro permuted
    have length := permuted.length_eq
    rw [List.length_append, length_filterMap within, length_filterMap others] at length
    exact nodup_of_length within length
  · intro distinct
    have permuted := (listed_append_others distinct within).filterMap (strong[·]?)
    rwa [List.filterMap_append, filterMap_range] at permuted

/-- Nothing is left of no hypotheses only. -/
theorem perm_of_result_nil
    (nothing : reordered strong rankedIndices ++ remainder strong rankedIndices = []) :
    [].Perm strong := by
  have within : ∀ position ∈ positions strong.length rankedIndices, position < strong.length :=
    fun position member => (mem_positions.mp member).1
  have unranked : positions strong.length rankedIndices = [] := by
    have length := length_filterMap within
    rw [← reordered_eq, (List.append_eq_nil_iff.mp nothing).1] at length
    exact List.length_eq_zero_iff.mp length.symm
  rw [← nothing, result_perm_iff, ← positions_nodup_iff, unranked]
  exact List.nodup_nil

/-- The planning permutes the strong hypotheses exactly where a ranking names each at most once. -/
theorem planAndRank_perm_iff (interpreter : Interpreter) (strong : List Hypothesis)
    (reply : Option String) :
    (planAndRank interpreter strong reply).Perm strong ↔
      NamesOnce interpreter strong.length reply := by
  rw [planAndRank, NamesOnce]
  cases ranked : reply.bind (ranking interpreter) with
  | none => simp
  | some rankedIndices =>
      simp only [Option.mem_some_iff, forall_eq', ← result_perm_iff]
      split_ifs with nothing
      · rw [List.isEmpty_iff.mp nothing]
        exact iff_of_true (List.Perm.refl strong) (perm_of_result_nil (List.isEmpty_iff.mp nothing))
      · exact Iff.rfl

/-- A ranking that names the first of two hypotheses twice returns three. -/
theorem planAndRank_repeats :
    ¬ ∀ (strong : List Reasoning.Payload) (reply : Option String),
      (planAndRank Reference.decimalInterpreter strong reply).Perm strong := by
  intro permutes
  have length := (permutes [[("description", .str "first")], [("description", .str "second")]]
    (some "\x7b\x22ranked_indices\x22: [0, 0]\x7d")).length_eq
  revert length
  decide +kernel

end TradingControl.Strategy
