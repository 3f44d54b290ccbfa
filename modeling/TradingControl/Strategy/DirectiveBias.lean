import TradingControl.Strategy.PromptStore

/-!
# Bias of the directive

An approved promotion writes its advisory into the directive in place of the ones of its strategy.
The writer knows them by how they open and the reader by a pattern, each after its own stripping and
splitting, and both see the same lines.
-/

namespace TradingControl.Strategy

open Python

/-! ## Promotions -/

/-- A call of `_bias_directive_toward` with an advisory of one line. -/
structure Promotion where
  strategy : String
  advisory : Line
  updatedAt : String
  named : strategy.toList ≠ []
  unquoted : '\x27' ∉ strategy.toList
  opened : stalePrefix strategy <+: advisory
  oneLine : OneLine advisory
  trimmed : trim advisory = advisory

/-- The advisory of `_apply_challenger_promotion`. -/
def promotionAdvisory (strategy edge confidence : String) : Line :=
  stalePrefix strategy ++ (" favor ".toList ++ (strategy.toList ++
    ("-aligned setups (beat baseline by edge ".toList ++ (edge.toList ++
      (", shadow win-rate ".toList ++ (confidence.toList ++ ").".toList))))))

theorem promotionAdvisory_oneLine {strategy edge confidence : String}
    (strategyLine : OneLine strategy.toList) (edgeLine : OneLine edge.toList)
    (confidenceLine : OneLine confidence.toList) :
    OneLine (promotionAdvisory strategy edge confidence) := by
  have opening : OneLine advisoryOpening := by decide +kernel
  have closing : OneLine ['\x27', ':'] := by decide +kernel
  have favor : OneLine " favor ".toList := by decide +kernel
  have setups : OneLine "-aligned setups (beat baseline by edge ".toList := by decide +kernel
  have rate : OneLine ", shadow win-rate ".toList := by decide +kernel
  have stop : OneLine ").".toList := by decide +kernel
  simp only [promotionAdvisory, stalePrefix, oneLine_append]
  exact ⟨⟨opening, strategyLine, closing⟩, favor, strategyLine, setups, edgeLine, rate,
    confidenceLine, stop⟩

theorem promotionAdvisory_trimmed (strategy edge confidence : String) :
    trim (promotionAdvisory strategy edge confidence) =
      promotionAdvisory strategy edge confidence := by
  have whole : ∃ middle, promotionAdvisory strategy edge confidence = 'P' :: (middle ++ ['.']) := by
    have opening : advisoryOpening = 'P' :: "romoted strategy \x27".toList := by decide +kernel
    have stop : ").".toList = ")".toList ++ ['.'] := by decide +kernel
    rw [promotionAdvisory, stalePrefix, opening, stop]
    simp only [← List.append_assoc, List.cons_append]
    exact ⟨_, rfl⟩
  obtain ⟨middle, whole⟩ := whole
  rw [whole, trim_of_ends (by decide) (by decide)]

/-- What the caller writes is of one line when what it puts into it is. -/
def Promotion.ofProposal (strategy edge confidence updatedAt : String)
    (named : strategy.toList ≠ []) (unquoted : '\x27' ∉ strategy.toList)
    (strategyLine : OneLine strategy.toList) (edgeLine : OneLine edge.toList)
    (confidenceLine : OneLine confidence.toList) : Promotion where
  strategy := strategy
  advisory := promotionAdvisory strategy edge confidence
  updatedAt := updatedAt
  named := named
  unquoted := unquoted
  opened := List.prefix_append _ _
  oneLine := promotionAdvisory_oneLine strategyLine edgeLine confidenceLine
  trimmed := promotionAdvisory_trimmed strategy edge confidence

def reasoningNode : String := "reasoning"

namespace PromptStore

/-- The record that is written, if one is, and the store after it. -/
def biasDirectiveToward (store : PromptStore) (promotion : Promotion) :
    Option Directive × PromptStore :=
  let current := store.getActiveText.toList
  let stale (line : Line) : Bool := stalePrefix promotion.strategy <+: trim line
  let hadPrior := (splitlines current).any stale
  let kept := (splitlines current).filter fun line => !stale line
  let newText := trim (joinLines (kept ++ [promotion.advisory]))
  if newText = trim current then (none, store)
  else
    let outcome := setDirective reasoningNode store
      { text := String.ofList newText
        rationale := "operator-approved challenger promotion: " ++ promotion.strategy
        source := "PROPOSAL_APPLIER"
        updatedAt := promotion.updatedAt
        bumpVersion := !hadPrior } healthy
    (some outcome.1, outcome.2)

def biasAll : PromptStore → List Promotion → PromptStore
  | store, [] => store
  | store, promotion :: promotions =>
      biasAll (biasDirectiveToward store promotion).2 promotions

def storedText (store : PromptStore) : String := store.active.elim "" Directive.text

end PromptStore

/-! ## What promotions leave in a directive -/

def advisories (strategy : String) (lines : List Line) : List Line :=
  lines.filterMap fun line =>
    if advisoryStrategy line = some strategy then some (trim line) else none

/-- The text of the lines that are no advisories, stripped. -/
def others (lines : List Line) : Line :=
  trim (joinLines (lines.filter fun line => advisoryStrategy line = none))

/-- At most one advisory for a strategy, the newest one where it was promoted, and all other lines
of the directive before, up to the whitespace around them. -/
structure Promoted (before after : String) (promotions : List Promotion) : Prop where
  single : ((splitlines after.toList).filterMap advisoryStrategy).Nodup
  newest : ∀ earlier promotion later, promotions = earlier ++ promotion :: later →
    (∀ other ∈ later, other.strategy ≠ promotion.strategy) →
      advisories promotion.strategy (splitlines after.toList) = [promotion.advisory]
  others : others (splitlines after.toList) = others (splitlines before.toList)

theorem advisoryStrategy_congr {first second : Line} (same : trim first = trim second) :
    advisoryStrategy first = advisoryStrategy second := by
  rw [advisoryStrategy, advisoryStrategy, same]

theorem advisoryStrategy_nil : advisoryStrategy [] = none := by decide +kernel

theorem endBlind_strategies : EndBlind (List.filterMap advisoryStrategy) :=
  endBlind_filterMap (fun _ _ same => advisoryStrategy_congr same) advisoryStrategy_nil

theorem endBlind_advisories (strategy : String) : EndBlind (advisories strategy) := by
  refine endBlind_filterMap (fun first second same => ?_) ?_
  · rw [advisoryStrategy_congr same, same]
  · rw [advisoryStrategy_nil, if_neg (Option.some_ne_none strategy).symm]

theorem endBlind_others : EndBlind others := by
  refine endBlind_filter (fun first second same => ?_) ?_
  · rw [advisoryStrategy_congr same]
  · rw [advisoryStrategy_nil, decide_eq_true rfl]

namespace Promotion

/-- What a promotion makes of the lines of a directive. -/
def biased (promotion : Promotion) (lines : List Line) : List Line :=
  lines.filter (fun line => advisoryStrategy line ≠ some promotion.strategy) ++
    [promotion.advisory]

variable (promotion : Promotion) (lines : List Line)

theorem stale_iff (line : Line) : stalePrefix promotion.strategy <+: trim line ↔
    advisoryStrategy line = some promotion.strategy := by
  rw [advisoryStrategy_eq_some_iff]
  exact ⟨fun opens => ⟨promotion.named, promotion.unquoted, opens⟩, fun found => found.2.2⟩

theorem advisoryStrategy_advisory :
    advisoryStrategy promotion.advisory = some promotion.strategy := by
  rw [← stale_iff, promotion.trimmed]
  exact promotion.opened

theorem biased_oneLine {lines : List Line} (plain : ∀ line ∈ lines, OneLine line) :
    ∀ line ∈ promotion.biased lines, OneLine line := by
  intro line listed
  rcases List.mem_append.mp listed with kept | last
  · exact plain line (List.mem_filter.mp kept).1
  · rw [List.mem_singleton.mp last]
    exact promotion.oneLine

theorem nodup_biased {lines : List Line} (distinct : (lines.filterMap advisoryStrategy).Nodup) :
    ((promotion.biased lines).filterMap advisoryStrategy).Nodup := by
  have kept : (lines.filter fun line => advisoryStrategy line ≠ some promotion.strategy).Sublist
      lines := List.filter_sublist
  rw [biased, List.filterMap_append, List.filterMap_cons_some promotion.advisoryStrategy_advisory,
    List.filterMap_nil, List.nodup_append]
  refine ⟨distinct.sublist (kept.filterMap advisoryStrategy), List.nodup_singleton _, ?_⟩
  intro strategy listed other last same
  obtain ⟨line, kept, named⟩ := List.mem_filterMap.mp listed
  rw [List.mem_singleton.mp last] at same
  rw [same] at named
  exact of_decide_eq_true (List.mem_filter.mp kept).2 named

theorem advisories_biased :
    advisories promotion.strategy (promotion.biased lines) = [promotion.advisory] := by
  have none : advisories promotion.strategy
      (lines.filter fun line => advisoryStrategy line ≠ some promotion.strategy) = [] := by
    rw [advisories, List.filterMap_eq_nil_iff]
    intro line kept
    exact if_neg (of_decide_eq_true (List.mem_filter.mp kept).2)
  have last : advisories promotion.strategy [promotion.advisory] = [promotion.advisory] := by
    simp [advisories, promotion.advisoryStrategy_advisory, promotion.trimmed]
  rw [biased, advisories, List.filterMap_append, ← advisories, ← advisories, none, last,
    List.nil_append]

theorem advisories_biased_of_ne {strategy : String} (other : promotion.strategy ≠ strategy) :
    advisories strategy (promotion.biased lines) = advisories strategy lines := by
  have last : advisories strategy [promotion.advisory] = [] := by
    rw [advisories, List.filterMap_eq_nil_iff]
    intro line listed
    rw [List.mem_singleton.mp listed, promotion.advisoryStrategy_advisory]
    exact if_neg fun same => other (Option.some.inj same)
  rw [biased, advisories, List.filterMap_append, ← advisories, ← advisories, last, List.append_nil,
    advisories, List.filterMap_filter, advisories]
  refine List.filterMap_congr fun line _ => ?_
  by_cases named : advisoryStrategy line = some strategy
  · rw [if_pos]
    rw [named]
    exact decide_eq_true fun same => other (Option.some.inj same).symm
  · rw [if_neg named]
    exact ite_self _

theorem others_biased : others (promotion.biased lines) = others lines := by
  have advisory : (advisoryStrategy promotion.advisory = none) = False := by
    rw [promotion.advisoryStrategy_advisory]
    exact eq_false (Option.some_ne_none _)
  rw [others, biased, List.filter_append, List.filter_filter,
    List.filter_cons_of_neg (by simp [advisory]), List.filter_nil, List.append_nil, others]
  congr 2
  refine List.filter_congr fun line _ => ?_
  by_cases none : advisoryStrategy line = none
  · simp [none]
  · simp [none]

end Promotion

namespace PromptStore

variable (store : PromptStore) (promotion : Promotion)

/-- The stored text has at most one advisory for a strategy. -/
def Tidy (store : PromptStore) : Prop :=
  ((splitlines store.storedText.toList).filterMap advisoryStrategy).Nodup

theorem reliable_healthy (request : DirectiveRequest) : Reliable store request healthy :=
  ⟨Bool.noConfusion, fun _ _ => ⟨rfl, rfl⟩, fun _ => by decide⟩

theorem getActiveText_of_active {stored : Directive} (holds : store.active = some stored) :
    store.getActiveText = dedupePromotionAdvisories stored.text := by
  rw [getActiveText, getDirective, holds]
  rfl

theorem getActiveText_of_none (empty : store.active = none) : store.getActiveText = "" := by
  rw [getActiveText, getDirective, empty]
  rfl

theorem read_getActiveText {α : Type} {read : List Line → α} (blind : EndBlind read) :
    read (splitlines store.getActiveText.toList) =
      read (dedupeLines (splitlines store.storedText.toList)) := by
  cases holds : store.active with
  | none => rw [getActiveText_of_none store holds, storedText, holds]; rfl
  | some stored =>
      have plain : ∀ line ∈ dedupeLines (splitlines stored.text.toList), OneLine line := by
        intro line listed
        rw [dedupeLines_eq] at listed
        exact splitlines_oneLine _ line ((newestOnly_sublist _ _).subset listed)
      rw [getActiveText_of_active store holds, storedText, holds, dedupePromotionAdvisories,
        String.toList_ofList, blind.splitlines_joinLines plain]
      rfl

theorem nodup_getActiveText :
    ((splitlines store.getActiveText.toList).filterMap advisoryStrategy).Nodup := by
  rw [store.read_getActiveText endBlind_strategies, dedupeLines_eq]
  exact nodup_filterMap_newestOnly _ _

theorem Tidy.read {store : PromptStore} (tidy : store.Tidy) {α : Type} {read : List Line → α}
    (blind : EndBlind read) :
    read (splitlines store.storedText.toList) = read (splitlines store.getActiveText.toList) := by
  rw [store.read_getActiveText blind, dedupeLines_eq, newestOnly_of_nodup _ tidy]

theorem others_getActiveText :
    others (splitlines store.getActiveText.toList) =
      others (splitlines store.storedText.toList) := by
  rw [store.read_getActiveText endBlind_others, dedupeLines_eq, others, filter_none_newestOnly]
  rfl

theorem Written.storedText_eq {node : String} {store after : PromptStore}
    {request : DirectiveRequest} {returned : Directive} {replaced : Option Directive}
    (written : Written node store request returned after replaced)
    (other : trim request.text.toList ≠ trim store.getActiveText.toList) :
    after.storedText = request.text := by
  cases written with
  | first => rfl
  | identical stored holds same =>
      have texts := congrArg String.toList same
      rw [strip_eq, strip_eq, String.toList_ofList, String.toList_ofList] at texts
      rw [getActiveText_of_active _ holds] at other
      exact absurd texts other
  | inPlace => rfl
  | replaced => rfl

/-- A call writes nothing, and the text is the one it would write, or it writes it. -/
theorem bias_cases :
    let newText := trim (joinLines (promotion.biased (splitlines store.getActiveText.toList)))
    ((biasDirectiveToward store promotion).2 = store ∧
        newText = trim store.getActiveText.toList) ∨
      (biasDirectiveToward store promotion).2.storedText = String.ofList newText := by
  have kept : ((splitlines store.getActiveText.toList).filter fun line =>
      !decide (stalePrefix promotion.strategy <+: trim line)) ++ [promotion.advisory] =
        promotion.biased (splitlines store.getActiveText.toList) := by
    rw [Promotion.biased]
    congr 1
    refine List.filter_congr fun line _ => ?_
    rw [← decide_not, decide_eq_decide, promotion.stale_iff]
  intro newText
  rw [biasDirectiveToward]
  simp only [kept]
  split_ifs with same
  · exact .inl ⟨rfl, same⟩
  · right
    refine (written reasoningNode (store.reliable_healthy _)).storedText_eq ?_
    rw [String.toList_ofList, trim_trim]
    exact same

theorem tidy_of_written (written : (biasDirectiveToward store promotion).2.storedText =
    String.ofList (trim (joinLines
      (promotion.biased (splitlines store.getActiveText.toList))))) :
    (biasDirectiveToward store promotion).2.Tidy := by
  have plain := promotion.biased_oneLine (splitlines_oneLine store.getActiveText.toList)
  rw [Tidy, written, String.toList_ofList, endBlind_strategies.splitlines_trim,
    endBlind_strategies.splitlines_joinLines plain]
  exact promotion.nodup_biased store.nodup_getActiveText

theorem read_bias {α : Type} {read : List Line → α} (blind : EndBlind read) :
    read (splitlines (biasDirectiveToward store promotion).2.getActiveText.toList) =
      read (promotion.biased (splitlines store.getActiveText.toList)) := by
  have plain := promotion.biased_oneLine (splitlines_oneLine store.getActiveText.toList)
  rcases store.bias_cases promotion with ⟨unchanged, same⟩ | written
  · rw [unchanged, ← blind.splitlines_trim, ← same, blind.splitlines_trim,
      blind.splitlines_joinLines plain]
  · have tidy := store.tidy_of_written promotion written
    rw [← tidy.read blind, written, String.toList_ofList, blind.splitlines_trim,
      blind.splitlines_joinLines plain]

theorem bias_tidy : (biasDirectiveToward store promotion).2 = store ∨
    (biasDirectiveToward store promotion).2.Tidy := by
  rcases store.bias_cases promotion with ⟨unchanged, -⟩ | written
  · exact .inl unchanged
  · exact .inr (store.tidy_of_written promotion written)

variable (promotions : List Promotion)

theorem others_biasAll :
    others (splitlines (biasAll store promotions).getActiveText.toList) =
      others (splitlines store.getActiveText.toList) := by
  induction promotions generalizing store with
  | nil => rfl
  | cons promotion promotions induction =>
      rw [biasAll, induction, store.read_bias promotion endBlind_others, promotion.others_biased]

theorem advisories_biasAll {strategy : String}
    (unnamed : ∀ promotion ∈ promotions, promotion.strategy ≠ strategy) :
    advisories strategy (splitlines (biasAll store promotions).getActiveText.toList) =
      advisories strategy (splitlines store.getActiveText.toList) := by
  induction promotions generalizing store with
  | nil => rfl
  | cons promotion promotions induction =>
      have other := unnamed promotion List.mem_cons_self
      rw [biasAll, induction _ fun later listed => unnamed later (List.mem_cons_of_mem _ listed),
        store.read_bias promotion (endBlind_advisories strategy),
        promotion.advisories_biased_of_ne _ other]

theorem biasAll_append (earlier later : List Promotion) :
    biasAll store (earlier ++ later) = biasAll (biasAll store earlier) later := by
  induction earlier generalizing store with
  | nil => rfl
  | cons promotion earlier induction => rw [List.cons_append, biasAll, induction, biasAll]

theorem promoted_read :
    Promoted store.storedText (biasAll store promotions).getActiveText promotions where
  single := nodup_getActiveText _
  newest := by
    rintro earlier promotion later rfl last
    have here := (biasAll store earlier).read_bias promotion
      (endBlind_advisories promotion.strategy)
    rw [biasAll_append, biasAll, advisories_biasAll _ later last, here,
      promotion.advisories_biased]
  others := (store.others_biasAll promotions).trans store.others_getActiveText

theorem biasAll_tidy : biasAll store promotions = store ∨ (biasAll store promotions).Tidy := by
  induction promotions generalizing store with
  | nil => exact .inl rfl
  | cons promotion promotions induction =>
      rw [biasAll]
      rcases induction (biasDirectiveToward store promotion).2 with unchanged | tidy
      · rw [unchanged]
        exact store.bias_tidy promotion
      · exact .inr tidy

theorem promoted_stored (tidy : (biasAll store promotions).Tidy) :
    Promoted store.storedText (biasAll store promotions).storedText promotions := by
  have read := store.promoted_read promotions
  constructor
  · exact tidy
  · intro earlier promotion later whole last
    rw [tidy.read (endBlind_advisories promotion.strategy)]
    exact read.newest earlier promotion later whole last
  · rw [tidy.read endBlind_others]
    exact read.others

/-- The laws of the reader on any lines, and of the reader and the writer together. -/
theorem promotions_heal :
    (∀ lines : List Line, dedupeLines (dedupeLines lines) = dedupeLines lines ∧
      (∀ strategy, (dedupeLines lines).filter (fun line => advisoryStrategy line = some strategy) =
        (lines.filter fun line => advisoryStrategy line = some strategy).getLast?.toList) ∧
      (dedupeLines lines).filter (fun line => advisoryStrategy line = none) =
        lines.filter (fun line => advisoryStrategy line = none) ∧
      (dedupeLines lines).Sublist lines) ∧
    ∀ (store : PromptStore) (promotions : List Promotion),
      Promoted store.storedText (biasAll store promotions).getActiveText promotions ∧
      (store.Tidy ∨ biasAll store promotions ≠ store →
        Promoted store.storedText (biasAll store promotions).storedText promotions) := by
  refine ⟨fun lines => ?_, fun store promotions => ⟨store.promoted_read promotions, ?_⟩⟩
  · rw [dedupeLines_eq, dedupeLines_eq]
    exact ⟨newestOnly_of_nodup _ (nodup_filterMap_newestOnly _ lines),
      fun strategy => filter_some_newestOnly _ strategy lines, filter_none_newestOnly _ lines,
      newestOnly_sublist _ lines⟩
  · intro heals
    refine store.promoted_stored promotions ?_
    rcases store.biasAll_tidy promotions with unchanged | tidy
    · rcases heals with tidy | changed
      · rw [unchanged]
        exact tidy
      · exact absurd unchanged changed
    · exact tidy

/-- A promotion that the text as it is read already shows writes nothing, and the advisories stacked
in the stored text stay. -/
theorem stacked_stay :
    let store : PromptStore := ⟨some ⟨"reasoning",
      "Promoted strategy \x27trend\x27: one\nPromoted strategy \x27trend\x27: two\n" ++
        "Promoted strategy \x27breakout\x27: three", 1, "", "", "t1"⟩, []⟩
    let promotion : Promotion := ⟨"breakout", "Promoted strategy \x27breakout\x27: three".toList,
      "t2", by decide +kernel, by decide +kernel, by decide +kernel, by decide +kernel,
      by decide +kernel⟩
    biasAll store [promotion] = store ∧
      (splitlines store.storedText.toList).filterMap advisoryStrategy =
        ["trend", "trend", "breakout"] ∧
      ¬ ∀ (store : PromptStore) (promotions : List Promotion), promotions ≠ [] →
        Promoted store.storedText (biasAll store promotions).storedText promotions := by
  intro store promotion
  have unchanged : biasAll store [promotion] = store := by decide +kernel
  have stacked : (splitlines store.storedText.toList).filterMap advisoryStrategy =
      ["trend", "trend", "breakout"] := by decide +kernel
  refine ⟨unchanged, stacked, fun promoted => ?_⟩
  have single := (promoted store [promotion] (List.cons_ne_nil _ _)).single
  rw [unchanged, stacked] at single
  revert single
  decide

end PromptStore

end TradingControl.Strategy
