import Mathlib
import TradingControl.Python.Dict
import TradingControl.Python.Lines

/-!
# Prompt store

The evolving directive of a node, its version and its capped history.  Reads heal stacked
promotion advisories.  A failed read looks like an unset directive, and a failed write is only
logged; what the versions and the history promise holds of runs in which neither comes between.
-/

namespace TradingControl.Strategy

open Python

/-! ## The newest of each key -/

section

variable {α β : Type} [DecidableEq β] (key : α → Option β)

/-- The items without those whose key comes again. -/
def newestOnly : List α → List α
  | [] => []
  | item :: rest =>
      if ∃ value ∈ key item, value ∈ rest.filterMap key then newestOnly rest
      else item :: newestOnly rest

theorem newestOnly_cons (item : α) (rest : List α) :
    newestOnly key (item :: rest) =
      if ∃ value ∈ key item, value ∈ rest.filterMap key then newestOnly key rest
      else item :: newestOnly key rest := rfl

theorem newestOnly_sublist (items : List α) : (newestOnly key items).Sublist items := by
  induction items with
  | nil => exact List.Sublist.slnil
  | cons item rest induction =>
      rw [newestOnly_cons]
      split_ifs
      · exact induction.cons item
      · exact induction.cons_cons item

theorem mem_filterMap_newestOnly (value : β) (items : List α) :
    value ∈ (newestOnly key items).filterMap key ↔ value ∈ items.filterMap key := by
  induction items with
  | nil => rfl
  | cons item rest induction =>
      rw [newestOnly_cons]
      split_ifs with again
      · obtain ⟨found, named, later⟩ := again
        rw [induction, List.filterMap_cons_some named, List.mem_cons]
        refine ⟨Or.inr, ?_⟩
        rintro (rfl | listed)
        · exact later
        · exact listed
      · cases named : key item with
        | none => rw [List.filterMap_cons_none named, List.filterMap_cons_none named, induction]
        | some found =>
            rw [List.filterMap_cons_some named, List.filterMap_cons_some named, List.mem_cons,
              List.mem_cons, induction]

theorem nodup_filterMap_newestOnly (items : List α) :
    ((newestOnly key items).filterMap key).Nodup := by
  induction items with
  | nil => exact List.nodup_nil
  | cons item rest induction =>
      rw [newestOnly_cons]
      split_ifs with again
      · exact induction
      · cases named : key item with
        | none =>
            rw [List.filterMap_cons_none named]
            exact induction
        | some found =>
            rw [List.filterMap_cons_some named]
            refine List.nodup_cons.mpr ⟨?_, induction⟩
            rw [mem_filterMap_newestOnly]
            intro later
            exact again ⟨found, named, later⟩

theorem newestOnly_of_nodup {items : List α} (distinct : (items.filterMap key).Nodup) :
    newestOnly key items = items := by
  induction items with
  | nil => rfl
  | cons item rest induction =>
      have alone : ¬ ∃ value ∈ key item, value ∈ rest.filterMap key := by
        rintro ⟨value, named, later⟩
        rw [List.filterMap_cons_some named] at distinct
        exact (List.nodup_cons.mp distinct).1 later
      have others : (rest.filterMap key).Nodup :=
        distinct.sublist ((List.sublist_cons_self item rest).filterMap key)
      rw [newestOnly_cons, if_neg alone, induction others]

theorem filter_none_newestOnly (items : List α) :
    (newestOnly key items).filter (fun item => key item = none) =
      items.filter fun item => key item = none := by
  induction items with
  | nil => rfl
  | cons item rest induction =>
      rw [newestOnly_cons]
      split_ifs with again
      · obtain ⟨value, named, -⟩ := again
        rw [induction, List.filter_cons_of_neg (by simp [Option.mem_def.mp named])]
      · rw [List.filter_cons, List.filter_cons, induction]

theorem filter_eq_nil_of_notMem {value : β} {items : List α}
    (absent : value ∉ items.filterMap key) :
    items.filter (fun item => key item = some value) = [] := by
  rw [List.filter_eq_nil_iff]
  intro item listed named
  exact absent (List.mem_filterMap.mpr ⟨item, listed, of_decide_eq_true named⟩)

theorem filter_some_newestOnly (value : β) (items : List α) :
    (newestOnly key items).filter (fun item => key item = some value) =
      (items.filter fun item => key item = some value).getLast?.toList := by
  induction items with
  | nil => rfl
  | cons item rest induction =>
      rw [newestOnly_cons]
      split_ifs with again
      · obtain ⟨found, named, later⟩ := again
        rw [induction]
        by_cases same : key item = some value
        · -- a later item of the key is the last one
          obtain rfl : found = value := Option.some.inj (named.symm.trans same)
          obtain ⟨other, listed, again⟩ := List.mem_filterMap.mp later
          have filled : rest.filter (fun item => key item = some found) ≠ [] :=
            List.ne_nil_of_mem (List.mem_filter.mpr ⟨listed, decide_eq_true again⟩)
          rw [List.filter_cons_of_pos (by simpa using same), List.getLast?_cons,
            List.getLast?_eq_some_getLast filled]
          rfl
        · rw [List.filter_cons_of_neg (by simpa using same)]
      · by_cases same : key item = some value
        · have absent : value ∉ rest.filterMap key := fun later => again ⟨value, same, later⟩
          have none := filter_eq_nil_of_notMem key absent
          have noneLeft := filter_eq_nil_of_notMem key
            ((mem_filterMap_newestOnly key value rest).not.mpr absent)
          rw [List.filter_cons_of_pos (by simpa using same),
            List.filter_cons_of_pos (by simpa using same), none, noneLeft]
          rfl
        · rw [List.filter_cons_of_neg (by simpa using same),
            List.filter_cons_of_neg (by simpa using same), induction]

end

/-! ## Advisories -/

def advisoryOpening : Line := "Promoted strategy \x27".toList

/-- The strategy that `_PROMOTION_ADVISORY_RE` finds in the stripped line. -/
def advisoryStrategy (line : Line) : Option String :=
  if advisoryOpening <+: trim line then
    let rest := (trim line).drop advisoryOpening.length
    let strategy := rest.takeWhile (· ≠ '\x27')
    if strategy ≠ [] ∧ ['\x27', ':'] <+: rest.drop strategy.length then
      some (String.ofList strategy)
    else none
  else none

/-- `stale_prefix`, what a promotion advisory of the strategy opens with. -/
def stalePrefix (strategy : String) : Line :=
  advisoryOpening ++ (strategy.toList ++ ['\x27', ':'])

theorem takeWhile_of_notMem {α : Type} [DecidableEq α] {front : List α} {stop : α}
    (absent : stop ∉ front) (rest : List α) :
    (front ++ stop :: rest).takeWhile (· ≠ stop) = front := by
  have inside : ∀ letter ∈ front, decide (letter ≠ stop) = true := by
    intro letter member
    exact decide_eq_true fun same => absent (same ▸ member)
  rw [List.takeWhile_append_of_pos inside, List.takeWhile_cons_of_neg (by simp), List.append_nil]

/-- The pattern of the reader and the opening of the writer tell the same lines. -/
theorem advisoryStrategy_eq_some_iff (line : Line) (strategy : String) :
    advisoryStrategy line = some strategy ↔
      strategy.toList ≠ [] ∧ '\x27' ∉ strategy.toList ∧ stalePrefix strategy <+: trim line := by
  rw [advisoryStrategy]
  constructor
  · intro found
    by_cases opens : advisoryOpening <+: trim line
    · rw [if_pos opens] at found
      obtain ⟨rest, whole⟩ := opens
      rw [← whole, List.drop_left] at found
      dsimp only at found
      split_ifs at found with named
      obtain ⟨filled, after, closes⟩ := named
      obtain rfl := Option.some.inj found
      rw [String.toList_ofList]
      refine ⟨filled, ?_, after, ?_⟩
      · intro quoted
        have other := List.mem_takeWhile_imp quoted
        exact of_decide_eq_true other rfl
      · have split := List.prefix_iff_eq_append.mp (List.takeWhile_prefix (· ≠ '\x27') (l := rest))
        rw [stalePrefix, String.toList_ofList, ← whole, List.append_assoc, List.append_assoc,
          closes, split]
    · rw [if_neg opens] at found
      cases found
  · rintro ⟨filled, plain, after, whole⟩
    have opens : advisoryOpening <+: trim line := by
      rw [← whole, stalePrefix, List.append_assoc]
      exact List.prefix_append _ _
    have rest : (trim line).drop advisoryOpening.length =
        strategy.toList ++ '\x27' :: ':' :: after := by
      rw [← whole, stalePrefix, List.append_assoc, List.drop_left, List.append_assoc]
      rfl
    have named := takeWhile_of_notMem plain (':' :: after)
    rw [if_pos opens, rest]
    simp only [named, List.drop_left]
    rw [if_pos ⟨filled, List.prefix_append _ _⟩, String.ofList_toList]

/-- `newest_by_strategy`. -/
def newestByStrategy (lines : List Line) : Dict String ℕ :=
  lines.zipIdx.foldl (fun newest numbered =>
    match advisoryStrategy numbered.1 with
    | some strategy => newest.set strategy numbered.2
    | none => newest) []

/-- `dedupe_promotion_advisories` on the lines of the text. -/
def dedupeLines (lines : List Line) : List Line :=
  let keep := (newestByStrategy lines).map Prod.snd
  (lines.zipIdx.filter fun numbered =>
    numbered.2 ∈ keep ∨ advisoryStrategy numbered.1 = none).map Prod.fst

def dedupePromotionAdvisories (text : String) : String :=
  String.ofList (joinLines (dedupeLines (splitlines text.toList)))

def lastIndex (strategy : String) : List Line → ℕ → Option ℕ
  | [], _ => none
  | line :: rest, start =>
      (lastIndex strategy rest (start + 1)).or
        (if advisoryStrategy line = some strategy then some start else none)

theorem lt_of_lastIndex {strategy : String} {lines : List Line} {start index : ℕ}
    (found : lastIndex strategy lines start = some index) : start ≤ index := by
  induction lines generalizing start with
  | nil => cases found
  | cons line rest induction =>
      rw [lastIndex, Option.or_eq_some_iff] at found
      rcases found with later | ⟨-, here⟩
      · exact Nat.le_of_succ_le (induction later)
      · split_ifs at here
        exact (Option.some.inj here).le

theorem lastIndex_eq_none_iff (strategy : String) (lines : List Line) (start : ℕ) :
    lastIndex strategy lines start = none ↔ strategy ∉ lines.filterMap advisoryStrategy := by
  induction lines generalizing start with
  | nil => simp [lastIndex]
  | cons line rest induction =>
      rw [lastIndex, Option.or_eq_none_iff, induction]
      cases named : advisoryStrategy line with
      | none => simp [List.filterMap_cons_none named]
      | some found =>
          simp [List.filterMap_cons_some named, and_comm, eq_comm]

/-- The strategies numbered so far and those of further lines. -/
def numberFrom (newest : Dict String ℕ) (numbered : List (Line × ℕ)) : Dict String ℕ :=
  numbered.foldl (fun newest numbered =>
    match advisoryStrategy numbered.1 with
    | some strategy => newest.set strategy numbered.2
    | none => newest) newest

theorem lookup_numberFrom (strategy : String) (lines : List Line) (start : ℕ)
    (newest : Dict String ℕ) :
    (numberFrom newest (lines.zipIdx start)).lookup strategy =
      (lastIndex strategy lines start).or (newest.lookup strategy) := by
  induction lines generalizing start newest with
  | nil => rfl
  | cons line rest induction =>
      rw [List.zipIdx_cons, numberFrom, List.foldl_cons, ← numberFrom, induction, lastIndex]
      cases named : advisoryStrategy line with
      | none => simp
      | some found =>
          by_cases same : strategy = found
          · simp [same, Dict.lookup_set]
          · simp [same, Ne.symm same, Dict.lookup_set]

theorem nodup_numberFrom (numbered : List (Line × ℕ)) {newest : Dict String ℕ}
    (distinct : (Dict.keys newest).Nodup) : (Dict.keys (numberFrom newest numbered)).Nodup := by
  induction numbered generalizing newest with
  | nil => exact distinct
  | cons first numbered induction =>
      rw [numberFrom, List.foldl_cons, ← numberFrom]
      cases advisoryStrategy first.1 with
      | none => exact induction distinct
      | some strategy => exact induction (Dict.nodup_set strategy first.2 distinct)

theorem mem_keep_iff (lines : List Line) (index : ℕ) :
    index ∈ (newestByStrategy lines).map Prod.snd ↔
      ∃ strategy, lastIndex strategy lines 0 = some index := by
  have look : ∀ strategy, (newestByStrategy lines).lookup strategy = lastIndex strategy lines 0 :=
    fun strategy => (lookup_numberFrom strategy lines 0 []).trans (Option.or_none)
  have distinct : (Dict.keys (newestByStrategy lines)).Nodup :=
    nodup_numberFrom lines.zipIdx List.nodup_nil
  constructor
  · intro listed
    obtain ⟨⟨strategy, _⟩, member, rfl⟩ := List.mem_map.mp listed
    exact ⟨strategy, (look strategy).symm.trans (Dict.lookup_of_mem distinct member)⟩
  · rintro ⟨strategy, last⟩
    exact List.mem_map_of_mem (Dict.mem_of_lookup ((look strategy).trans last))

theorem filter_zipIdx_eq {lines : List Line} {start : ℕ} {keep : List ℕ}
    (kept : ∀ index ≥ start,
      index ∈ keep ↔ ∃ strategy, lastIndex strategy lines start = some index) :
    ((lines.zipIdx start).filter fun numbered =>
      numbered.2 ∈ keep ∨ advisoryStrategy numbered.1 = none).map Prod.fst =
        newestOnly advisoryStrategy lines := by
  induction lines generalizing start with
  | nil => rfl
  | cons line rest induction =>
      have later : ∀ index ≥ start + 1,
          index ∈ keep ↔ ∃ strategy, lastIndex strategy rest (start + 1) = some index := by
        intro index after
        rw [kept index (Nat.le_of_succ_le after)]
        refine exists_congr fun strategy => ?_
        rw [lastIndex, Option.or_eq_some_iff]
        refine ⟨?_, Or.inl⟩
        rintro (found | ⟨-, here⟩)
        · exact found
        · split_ifs at here
          cases here
          omega
      have here : start ∈ keep ↔ ∃ strategy, advisoryStrategy line = some strategy ∧
          strategy ∉ rest.filterMap advisoryStrategy := by
        rw [kept start le_rfl]
        refine exists_congr fun strategy => ?_
        rw [lastIndex, Option.or_eq_some_iff, lastIndex_eq_none_iff]
        constructor
        · rintro (found | ⟨alone, named⟩)
          · have := lt_of_lastIndex found
            omega
          · split_ifs at named with promotes
            exact ⟨promotes, alone⟩
        · rintro ⟨promotes, alone⟩
          exact .inr ⟨alone, if_pos promotes⟩
      rw [List.zipIdx_cons, newestOnly_cons]
      split_ifs with again
      · obtain ⟨strategy, named, again⟩ := again
        have named : advisoryStrategy line = some strategy := named
        have superseded : start ∉ keep := by
          rw [here]
          rintro ⟨other, promotes, alone⟩
          obtain rfl : strategy = other := Option.some.inj (named.symm.trans promotes)
          exact alone again
        rw [List.filter_cons_of_neg (by simp [superseded, named]), induction later]
      · rw [List.filter_cons_of_pos, List.map_cons, induction later]
        cases named : advisoryStrategy line with
        | none => simp
        | some strategy =>
            have alone : strategy ∉ rest.filterMap advisoryStrategy :=
              fun later => again ⟨strategy, named, later⟩
            have last : start ∈ keep := here.mpr ⟨strategy, named, alone⟩
            simp [last]

theorem dedupeLines_eq (lines : List Line) :
    dedupeLines lines = newestOnly advisoryStrategy lines :=
  filter_zipIdx_eq fun index _ => mem_keep_iff lines index

/-! ## The store -/

structure Directive where
  node : String
  text : String
  version : ℤ
  rationale : String
  source : String
  updatedAt : String
  deriving DecidableEq

/-- The two keys of a node, the history newest first. -/
structure PromptStore where
  active : Option Directive
  history : List Directive
  deriving DecidableEq

/-- `PROMPT_DIRECTIVE_HISTORY_CAP`. -/
def promptDirectiveHistoryCap : ℕ := 20

/-- How a call to Redis that writes ends: it is refused, or it takes effect and its reply is lost or
arrives. -/
inductive WriteEnd where
  | done
  | refused
  | lost
  deriving DecidableEq

/-- What becomes of the calls to Redis of one `set_directive`. -/
structure RedisEnds where
  readFails : Bool
  push : WriteEnd
  trim : WriteEnd
  set : WriteEnd

def healthy : RedisEnds := ⟨false, .done, .done, .done⟩

structure DirectiveRequest where
  text : String
  rationale : String
  source : String
  updatedAt : String
  bumpVersion : Bool

/-- The record as it is read. -/
def Directive.cleaned (record : Directive) : Directive :=
  { record with text := dedupePromotionAdvisories record.text }

namespace PromptStore

def getDirective (store : PromptStore) (readFails : Bool) : Option Directive :=
  if readFails then none else store.active.map Directive.cleaned

/-- The text of the active directive, or an empty one. -/
def getActiveText (store : PromptStore) : String :=
  (store.getDirective false).elim "" Directive.text

def inPlace (prev : Option Directive) (request : DirectiveRequest) : Bool :=
  prev.isSome && !request.bumpVersion

/-- The record that a call writes. -/
def record (node : String) (prev : Option Directive) (request : DirectiveRequest) : Directive :=
  let version := (prev.map Directive.version).getD 0 + if inPlace prev request then 0 else 1
  { node
    text := request.text
    version := max version 1
    rationale := request.rationale
    source := request.source
    updatedAt := request.updatedAt }

/-- The change takes effect unless the call is refused. -/
def takes (ends : WriteEnd) (store changed : PromptStore) : PromptStore :=
  if ends = .refused then store else changed

/-- The writes of a call; the first one that fails ends them. -/
def write (store : PromptStore) (prev : Option Directive) (request : DirectiveRequest)
    (record : Directive) (ends : RedisEnds) : PromptStore :=
  let set (store : PromptStore) := takes ends.set store { store with active := some record }
  match prev with
  | none => set store
  | some prev =>
      if request.bumpVersion = false then set store
      else
        let pushed := takes ends.push store { store with history := prev :: store.history }
        if ends.push ≠ .done then pushed
        else
          let trimmed := takes ends.trim pushed
            { pushed with history := pushed.history.take promptDirectiveHistoryCap }
          if ends.trim ≠ .done then trimmed else set trimmed

/-- The record that the call returns and the store after it. -/
def setDirective (node : String) (store : PromptStore) (request : DirectiveRequest)
    (ends : RedisEnds) : Directive × PromptStore :=
  let prev := store.getDirective ends.readFails
  match prev with
  | some prev =>
      if strip request.text = strip prev.text then (prev, store)
      else
        let written := record node (some prev) request
        (written, store.write (some prev) request written ends)
  | none =>
      let written := record node none request
      (written, store.write none request written ends)

/-! ## What one call promises -/

/-- No record, or the version of the active one. -/
def storedVersion (store : PromptStore) : WithBot ℤ :=
  match store.active with
  | none => ⊥
  | some record => (record.version : WithBot ℤ)

/-- The text is the active one. -/
def Identical (store : PromptStore) (request : DirectiveRequest) : Prop :=
  ∃ record ∈ store.active, strip request.text = strip record.cleaned.text

/-- The call replaces the active record by one with a version of its own. -/
def Replaces (store : PromptStore) (request : DirectiveRequest) : Prop :=
  store.active ≠ none ∧ request.bumpVersion = true

instance (store : PromptStore) (request : DirectiveRequest) : Decidable (Identical store request) :=
  inferInstanceAs (Decidable (∃ _ ∈ store.active, _))

instance (store : PromptStore) (request : DirectiveRequest) : Decidable (Replaces store request) :=
  inferInstanceAs (Decidable (_ ∧ _))

/-- A stored record is read, and what the call has to write is written; only the reply of the last
write may be lost. -/
structure Reliable (store : PromptStore) (request : DirectiveRequest) (ends : RedisEnds) :
    Prop where
  read : ends.readFails = true → store.active = none
  pushed : ¬ Identical store request → Replaces store request →
    ends.push = .done ∧ ends.trim = .done
  stored : ¬ Identical store request → ends.set ≠ .refused

/-- The record that a call replaces, when its last write takes effect. -/
def replacedBy (store : PromptStore) (request : DirectiveRequest) (ends : RedisEnds) :
    Option Directive :=
  match store.active with
  | none => none
  | some stored =>
      let prev := store.getDirective ends.readFails
      let identical := prev.any fun prev => strip request.text = strip prev.text
      let reached := prev = none ∨ ends.push = .done ∧ ends.trim = .done
      if identical = false ∧ inPlace prev request = false ∧ reached ∧ ends.set ≠ .refused then
        some stored
      else none

section

variable {store : PromptStore} {request : DirectiveRequest} {ends : RedisEnds} {stored : Directive}

theorem getDirective_of_active (holds : store.active = some stored)
    (reliable : Reliable store request ends) :
    store.getDirective ends.readFails = some stored.cleaned := by
  have reads : ends.readFails = false := by
    rw [Bool.eq_false_iff]
    intro fails
    rw [reliable.read fails] at holds
    cases holds
  rw [getDirective, reads, holds]
  rfl

theorem getDirective_of_none (empty : store.active = none) (fails : Bool) :
    store.getDirective fails = none := by
  rw [getDirective, empty]
  cases fails with
  | true => rfl
  | false => rfl

/-- The four things that a reliable call can do. -/
inductive Written (node : String) (store : PromptStore) (request : DirectiveRequest) :
    Directive → PromptStore → Option Directive → Prop where
  | first (empty : store.active = none) :
      Written node store request (record node none request)
        { store with active := some (record node none request) } none
  | identical (stored : Directive) (holds : store.active = some stored)
      (same : strip request.text = strip stored.cleaned.text) :
      Written node store request stored.cleaned store none
  | inPlace (stored : Directive) (holds : store.active = some stored)
      (keeps : request.bumpVersion = false) :
      Written node store request (record node (some stored.cleaned) request)
        { store with active := some (record node (some stored.cleaned) request) } none
  | replaced (stored : Directive) (holds : store.active = some stored)
      (bumps : request.bumpVersion = true) :
      Written node store request (record node (some stored.cleaned) request)
        { active := some (record node (some stored.cleaned) request)
          history := (stored.cleaned :: store.history).take promptDirectiveHistoryCap }
        (some stored)

theorem written (node : String) (reliable : Reliable store request ends) :
    Written node store request (setDirective node store request ends).1
      (setDirective node store request ends).2 (replacedBy store request ends) := by
  cases holds : store.active with
  | none =>
      have fresh : ¬ Identical store request := by
        rintro ⟨record, active, -⟩
        rw [holds] at active
        cases active
      have nothing : replacedBy store request ends = none := by rw [replacedBy, holds]
      have kept := reliable.stored fresh
      rw [setDirective, getDirective_of_none holds, nothing]
      simp only [write, takes, if_neg kept]
      exact .first holds
  | some stored =>
      have read := getDirective_of_active holds reliable
      rw [setDirective, replacedBy, holds, read]
      by_cases same : strip request.text = strip stored.cleaned.text
      · simp only [if_pos same, Option.any_some, decide_eq_true same, Bool.true_eq_false,
          false_and, if_false]
        exact .identical stored holds same
      · have other : ¬ Identical store request := by
          rintro ⟨record, active, identical⟩
          rw [holds] at active
          cases active
          exact same identical
        have kept := reliable.stored other
        cases bumps : request.bumpVersion with
        | false =>
            simp only [if_neg same, write, bumps, if_true, takes, if_neg kept, PromptStore.inPlace,
              Option.isSome_some, Bool.not_false, Bool.and_true, Bool.true_eq_false, false_and,
              and_false, if_false]
            exact .inPlace stored holds bumps
        | true =>
            have replaces : Replaces store request :=
              ⟨by rw [holds]; exact Option.some_ne_none stored, bumps⟩
            obtain ⟨pushed, trimmed⟩ := reliable.pushed other replaces
            simp [write, bumps, takes, kept, pushed, trimmed, PromptStore.inPlace,
              same]
            exact .replaced stored holds bumps

end

theorem version_le_record (node : String) (stored : Directive) (request : DirectiveRequest) :
    stored.version ≤ (record node (some stored.cleaned) request).version := by
  have same : stored.cleaned.version = stored.version := rfl
  refine le_trans ?_ (le_max_left _ 1)
  rw [Option.map_some, Option.getD_some, same]
  split_ifs <;> omega

namespace Written

variable {node : String} {store after : PromptStore} {request : DirectiveRequest}
  {returned : Directive} {replaced : Option Directive}

theorem storedVersion_le (written : Written node store request returned after replaced) :
    store.storedVersion ≤ after.storedVersion := by
  cases written with
  | first empty =>
      rw [storedVersion, empty]
      exact bot_le
  | identical => exact le_rfl
  | inPlace stored holds =>
      rw [storedVersion, holds]
      exact WithBot.coe_le_coe.mpr (version_le_record node stored request)
  | replaced stored holds =>
      rw [storedVersion, holds]
      exact WithBot.coe_le_coe.mpr (version_le_record node stored request)

theorem take_history (written : Written node store request returned after replaced) :
    after.history.take promptDirectiveHistoryCap =
      (replaced.toList.map Directive.cleaned ++ store.history).take promptDirectiveHistoryCap := by
  cases written with
  | first => rfl
  | identical => rfl
  | inPlace => rfl
  | replaced stored => exact List.take_take.trans (by rw [min_self]; rfl)

end Written

/-! ## Runs -/

abbrev SetCall := DirectiveRequest × RedisEnds

/-- The records that the calls return, each with the store after its call. -/
def outcomes (node : String) : PromptStore → List SetCall → List (Directive × PromptStore)
  | _, [] => []
  | store, (request, ends) :: calls =>
      let outcome := setDirective node store request ends
      outcome :: outcomes node outcome.2 calls

def run (node : String) : PromptStore → List SetCall → PromptStore
  | store, [] => store
  | store, (request, ends) :: calls => run node (setDirective node store request ends).2 calls

/-- The records that the calls replaced, newest first. -/
def replaced (node : String) : PromptStore → List SetCall → List Directive
  | _, [] => []
  | store, (request, ends) :: calls =>
      replaced node (setDirective node store request ends).2 calls ++
        (replacedBy store request ends).toList

def ReliableRun (node : String) : PromptStore → List SetCall → Prop
  | _, [] => True
  | store, (request, ends) :: calls =>
      Reliable store request ends ∧ ReliableRun node (setDirective node store request ends).2 calls

/-- The record is the stored one, as it was written or as it is read. -/
def Holds (store : PromptStore) (record : Directive) : Prop :=
  ∃ stored ∈ store.active, record = stored ∨ record = stored.cleaned

/-- Versions never go down, a replaced record stays in the history behind fewer records than its cap
counts, the active one among them, and what a call returns is stored. -/
structure Durable (node : String) (store : PromptStore) (calls : List SetCall) : Prop where
  monotone : (store.storedVersion ::
    (outcomes node store calls).map fun outcome => outcome.2.storedVersion).Pairwise (· ≤ ·)
  kept : ∀ index record, (replaced node store calls)[index]? = some record →
    index + 1 ≤ promptDirectiveHistoryCap →
      (run node store calls).history[index]? = some record.cleaned
  returned : ∀ outcome ∈ outcomes node store calls, outcome.2.Holds outcome.1

theorem Written.holds {node : String} {store after : PromptStore} {request : DirectiveRequest}
    {returned : Directive} {replaced : Option Directive}
    (written : Written node store request returned after replaced) : after.Holds returned := by
  cases written with
  | first => exact ⟨_, rfl, .inl rfl⟩
  | identical stored holds => exact ⟨stored, holds, .inr rfl⟩
  | inPlace => exact ⟨_, rfl, .inl rfl⟩
  | replaced => exact ⟨_, rfl, .inl rfl⟩

theorem run_take_history (node : String) (store : PromptStore) (calls : List SetCall)
    (reliable : ReliableRun node store calls) :
    (run node store calls).history.take promptDirectiveHistoryCap =
      ((replaced node store calls).map Directive.cleaned ++ store.history).take
        promptDirectiveHistoryCap := by
  induction calls generalizing store with
  | nil => rfl
  | cons call calls induction =>
      obtain ⟨request, ends⟩ := call
      have step := (written node reliable.1).take_history
      rw [run, induction _ reliable.2, replaced, List.map_append, List.append_assoc,
        List.take_append, List.take_append]
      congr 1
      have inside : promptDirectiveHistoryCap - ((replaced node
          (setDirective node store request ends).2 calls).map Directive.cleaned).length ≤
          promptDirectiveHistoryCap := Nat.sub_le _ _
      rw [← min_eq_left inside, ← List.take_take, step, List.take_take]

theorem outcomes_returned (node : String) (store : PromptStore) (calls : List SetCall)
    (reliable : ReliableRun node store calls) :
    ∀ outcome ∈ outcomes node store calls, outcome.2.Holds outcome.1 := by
  induction calls generalizing store with
  | nil =>
      intro outcome listed
      cases listed
  | cons call calls induction =>
      obtain ⟨request, ends⟩ := call
      intro outcome listed
      rcases List.mem_cons.mp listed with rfl | listed
      · exact (written node reliable.1).holds
      · exact induction _ reliable.2 outcome listed

theorem outcomes_monotone (node : String) (store : PromptStore) (calls : List SetCall)
    (reliable : ReliableRun node store calls) :
    (store.storedVersion ::
      (outcomes node store calls).map fun outcome => outcome.2.storedVersion).Pairwise
        (· ≤ ·) := by
  induction calls generalizing store with
  | nil => exact List.pairwise_singleton _ _
  | cons call calls induction =>
      obtain ⟨request, ends⟩ := call
      have step := (written node reliable.1).storedVersion_le
      have later := induction _ reliable.2
      rw [outcomes, List.map_cons]
      refine List.pairwise_cons.mpr ⟨?_, later⟩
      intro version listed
      rcases List.mem_cons.mp listed with rfl | listed
      · exact step
      · exact step.trans ((List.pairwise_cons.mp later).1 version listed)

theorem durable_of_reliable (node : String) (store : PromptStore) (calls : List SetCall)
    (reliable : ReliableRun node store calls) : Durable node store calls where
  monotone := outcomes_monotone node store calls reliable
  kept index record listed newer := by
    have kept := congrArg (fun history => history[index]?)
      (run_take_history node store calls reliable)
    have inside : index < ((replaced node store calls).map Directive.cleaned).length := by
      rw [List.length_map]
      exact (List.getElem?_eq_some_iff.mp listed).1
    simp only [List.getElem?_take_of_lt (Nat.lt_of_succ_le newer)] at kept
    rw [kept, List.getElem?_append_left inside, List.getElem?_map, listed]
    rfl
  returned := outcomes_returned node store calls reliable

/-- Two versions, the reply of the second write lost. -/
theorem durable_two_versions :
    Durable "reasoning" ⟨none, []⟩
      [(⟨"Keep risk tight.", "", "", "t1", true⟩, healthy),
        (⟨"Prefer longs.", "", "", "t2", true⟩, { healthy with set := .lost })] :=
  durable_of_reliable "reasoning" ⟨none, []⟩ _
    ⟨⟨fun _ => rfl, fun _ _ => ⟨rfl, rfl⟩, fun _ => by decide⟩,
      ⟨⟨Bool.noConfusion, fun _ _ => ⟨rfl, rfl⟩, fun _ => by decide⟩, trivial⟩⟩

/-- A read that fails restarts the versions at one, and the record it misses reaches no history. -/
theorem failed_read_restarts :
    let calls : List SetCall :=
      [(⟨"Keep risk tight.", "", "", "t1", true⟩, healthy),
        (⟨"Prefer longs.", "", "", "t2", true⟩, healthy),
        (⟨"Avoid news spikes.", "", "", "t3", true⟩, { healthy with readFails := true })]
    (outcomes "reasoning" ⟨none, []⟩ calls).map (fun outcome =>
        outcome.2.active.map Directive.version) = [some 1, some 2, some 1] ∧
      (run "reasoning" ⟨none, []⟩ calls).history.map Directive.text = ["Keep risk tight."] ∧
      ¬ ∀ node store calls, Durable node store calls := by
  refine ⟨by decide +kernel, by decide +kernel, ?_⟩
  intro durable
  have monotone := (durable "reasoning" ⟨none, []⟩
    [(⟨"Keep risk tight.", "", "", "t1", true⟩, healthy),
      (⟨"Prefer longs.", "", "", "t2", true⟩, healthy),
      (⟨"Avoid news spikes.", "", "", "t3", true⟩, { healthy with readFails := true })]).monotone
  revert monotone
  decide +kernel

end PromptStore

end TradingControl.Strategy
