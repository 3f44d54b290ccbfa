import Mathlib.Data.List.Induction
import TradingControl.Strategy.Registry

/-!
# The live version and the lineages

Whatever is registered, moved on and rolled back, one version at most is live, and it is on top of
the stack.  A lineage ascends through versions that are all registered.
-/

namespace TradingControl.StrategyRegistry

open Python

variable {registry after : StrategyRegistry}

/-! ## Lineages -/

/-- Every lineage ascends through registered versions and ends in its own. -/
def Lineal (registry : StrategyRegistry) : Prop :=
  ∀ strategy ∈ registry.versions,
    strategy.lineage.getLast? = some strategy.version ∧
    strategy.lineage.Pairwise (· < ·) ∧
    ∀ ancestor ∈ strategy.lineage, ∃ known ∈ registry.versions, known.version = ancestor

theorem lineal_empty : Lineal {} := by
  intro strategy member
  exact absurd member List.not_mem_nil

theorem Lineal.of_versions (lineal : registry.Lineal)
    (same : after.versions = registry.versions) : after.Lineal := by
  rw [Lineal]
  rw [same]
  exact lineal

@[simp] theorem versions_setStatus (registry : StrategyRegistry) (versionId : String)
    (status : StrategyStatus) (now : ℚ) :
    (registry.setStatus versionId status now).versions = registry.versions := by
  rw [versions, setStatus, Dict.modify]
  rw [List.map_map]
  refine List.map_congr_left fun item member => ?_
  dsimp only [Function.comp]
  split_ifs <;> rfl

@[simp] theorem versions_supersedeCurrentLive (registry : StrategyRegistry) (now : ℚ) :
    (registry.supersedeCurrentLive now).versions = registry.versions := by
  rw [supersedeCurrentLive]
  cases registry.liveStack.getLast? with
  | none => rfl
  | some current => exact versions_setStatus registry current .retired now

theorem versions_transition {versionId : String} {toStatus : StrategyStatus} {clock : ℕ → ℚ}
    {strategy : StrategyVersion}
    (accepted : registry.transition versionId toStatus clock = .ok (strategy, after)) :
    after.versions = registry.versions := by
  obtain ⟨held, -, -, ⟨-, rfl⟩ | ⟨-, rfl⟩⟩ := transition_cases accepted
  · exact (versions_setStatus _ versionId .live (clock 1)).trans
      (versions_supersedeCurrentLive registry (clock 0))
  · exact versions_setStatus registry versionId toStatus (clock 0)

@[simp] theorem versions_rollback (clock : ℕ → ℚ) (registry : StrategyRegistry) :
    (registry.rollback clock).2.versions = registry.versions := by
  rcases rollback_cases clock registry with
    ⟨-, same⟩ | ⟨current, -, ⟨-, after⟩ | ⟨previous, -, after⟩⟩
  · rw [same]
  · rw [after]
    exact versions_setStatus registry current .retired (clock 0)
  · rw [after]
    exact (versions_setStatus _ previous .live (clock 1)).trans
      (versions_setStatus registry current .retired (clock 0))

/-- A version is registered under a key that is not in use, so the others keep their places. -/
theorem versions_register (formed : registry.WellFormed) (hashConfig : ConfigHash)
    (config : List (String × Value)) (parentVersion : Option ℤ) (now : ℚ) :
    (registry.register hashConfig config parentVersion now).2.versions =
      registry.versions ++ [(registry.register hashConfig config parentVersion now).1] := by
  rw [versions, register]
  dsimp only
  rw [Dict.set_of_not_mem _ (formed.unused (hashConfig config)), List.map_append]
  rfl

theorem mem_of_byVersion {parentVersion : Option ℤ} {parent : StrategyRecord}
    (found : registry.byVersion parentVersion = some parent) :
    parent.strategy ∈ registry.versions := by
  cases parentVersion with
  | none => cases found
  | some version =>
      obtain ⟨item, present, rfl⟩ := Option.map_eq_some_iff.mp found
      exact List.mem_map_of_mem (List.mem_of_find?_eq_some present)

theorem lineal_register (formed : registry.WellFormed) (lineal : registry.Lineal)
    (hashConfig : ConfigHash) (config : List (String × Value)) (parentVersion : Option ℤ)
    (now : ℚ) : Lineal (registry.register hashConfig config parentVersion now).2 := by
  obtain ⟨inherited, strategy, version, lineage, parents⟩ :
      ∃ (inherited : List ℕ) (strategy : StrategyVersion),
        strategy.version = registry.nextVersion ∧
        strategy.lineage = inherited ++ [registry.nextVersion] ∧
        (inherited.Pairwise (· < ·) ∧
          ∀ ancestor ∈ inherited, ∃ known ∈ registry.versions, known.version = ancestor) ∧
        (registry.register hashConfig config parentVersion now).1 = strategy := by
    refine ⟨_, _, rfl, rfl, ?_, rfl⟩
    cases found : registry.byVersion parentVersion with
    | none => exact ⟨List.Pairwise.nil, fun _ member => absurd member List.not_mem_nil⟩
    | some parent => exact (lineal parent.strategy (mem_of_byVersion found)).2
  obtain ⟨⟨ascending, ancestors⟩, registered⟩ := parents
  have fresh : ∀ known ∈ registry.versions, known.version < registry.nextVersion := by
    intro known member
    obtain ⟨item, present, rfl⟩ := List.mem_map.mp member
    exact formed.fresh item present
  rw [Lineal]
  rw [versions_register formed, registered]
  intro held member
  rcases List.mem_append.mp member with earlier | last
  · obtain ⟨own, sorted, existing⟩ := lineal held earlier
    refine ⟨own, sorted, fun ancestor inLineage => ?_⟩
    obtain ⟨known, present, same⟩ := existing ancestor inLineage
    exact ⟨known, List.mem_append_left _ present, same⟩
  · rw [List.mem_singleton] at last
    subst last
    rw [lineage, version]
    refine ⟨List.getLast?_concat, ?_, fun ancestor inLineage => ?_⟩
    · refine List.pairwise_append.mpr ⟨ascending, List.pairwise_singleton _ _, ?_⟩
      intro ancestor inherits own isOwn
      obtain ⟨known, present, rfl⟩ := ancestors ancestor inherits
      rw [List.mem_singleton.mp isOwn]
      exact fresh known present
    · rcases List.mem_append.mp inLineage with inherits | own
      · obtain ⟨known, present, same⟩ := ancestors ancestor inherits
        exact ⟨known, List.mem_append_left _ present, same⟩
      · rw [List.mem_singleton.mp own]
        exact ⟨held, List.mem_append_right _ (List.mem_singleton_self _), version⟩

theorem lineal_apply (formed : registry.WellFormed) (lineal : registry.Lineal)
    (hashConfig : ConfigHash) (operation : RegistryOp) :
    Lineal (operation.apply hashConfig registry) := by
  cases operation with
  | register config parentVersion now =>
      exact lineal_register formed lineal hashConfig config parentVersion now
  | transition versionId toStatus clock =>
      rcases apply_transition_cases hashConfig registry versionId toStatus clock with
        same | ⟨strategy, accepted⟩
      · rw [same]
        exact lineal
      · exact lineal.of_versions (versions_transition accepted)
  | rollback clock => exact lineal.of_versions (versions_rollback clock registry)

theorem run_concat (hashConfig : ConfigHash) (operations : List RegistryOp)
    (operation : RegistryOp) :
    run hashConfig (operations ++ [operation]) =
      operation.apply hashConfig (run hashConfig operations) := by
  rw [run]
  rw [List.foldl_append]
  rfl

theorem lineal_run (hashConfig : ConfigHash) (operations : List RegistryOp) :
    Lineal (run hashConfig operations) := by
  induction operations using List.reverseRecOn with
  | nil => exact lineal_empty
  | append_singleton operations operation induction =>
      rw [run_concat]
      exact lineal_apply (wellFormed_run hashConfig operations) induction hashConfig operation

/-! ## The live version -/

def liveRecords (registry : StrategyRegistry) : Dict String StrategyRecord :=
  registry.records.filter fun item => item.2.status = .live

theorem WellFormed.top_of_live (formed : registry.WellFormed) {item : String × StrategyRecord}
    (live : item ∈ registry.liveRecords) : registry.liveStack.getLast? = some item.1 := by
  obtain ⟨member, status⟩ := List.mem_filter.mp live
  refine formed.top item.1 ?_
  have known : registry.get item.1 = some item.2 := Dict.lookup_of_mem formed.distinct member
  rw [StrategyRegistry.status, known, Option.map_some, of_decide_eq_true status]

theorem WellFormed.length_liveRecords_le (formed : registry.WellFormed) :
    registry.liveRecords.length ≤ 1 := by
  have distinct : (Dict.keys registry.liveRecords).Nodup :=
    formed.distinct.sublist (List.filter_sublist.map Prod.fst)
  have topmost : ∀ versionId ∈ Dict.keys registry.liveRecords,
      versionId ∈ registry.liveStack.getLast? := by
    intro versionId member
    obtain ⟨item, live, rfl⟩ := List.mem_map.mp member
    exact formed.top_of_live live
  have few : (Dict.keys registry.liveRecords).length ≤ registry.liveStack.getLast?.toList.length :=
    (List.subperm_of_subset distinct fun versionId member =>
      Option.mem_toList.mpr (topmost versionId member)).length_le
  rw [Dict.keys, List.length_map] at few
  exact few.trans (Option.length_toList_le)

/-- The registry accepts a transition of a known version to a stage that may follow its own. -/
def Accepts (registry : StrategyRegistry) (versionId : String) (toStatus : StrategyStatus) : Prop :=
  ∃ held, registry.status versionId = some held ∧ toStatus ∈ held.validTransitions

theorem apply_of_not_accepts (hashConfig : ConfigHash) {versionId : String}
    {toStatus : StrategyStatus} (rejected : ¬registry.Accepts versionId toStatus)
    (clock : ℕ → ℚ) :
    (RegistryOp.transition versionId toStatus clock).apply hashConfig registry = registry := by
  rcases apply_transition_cases hashConfig registry versionId toStatus clock with
    same | ⟨strategy, accepted⟩
  · exact same
  · obtain ⟨held, known, valid, -⟩ := transition_cases accepted
    exact absurd ⟨held, known, valid⟩ rejected

theorem transition_of_accepts {versionId : String} {toStatus : StrategyStatus}
    (accepted : registry.Accepts versionId toStatus) (clock : ℕ → ℚ) :
    ∃ strategy after, registry.transition versionId toStatus clock = .ok (strategy, after) := by
  obtain ⟨held, known, valid⟩ := accepted
  obtain ⟨record, found, rfl⟩ := Option.map_eq_some_iff.mp known
  rw [transition, found]
  dsimp only
  rw [if_neg (not_not_intro valid)]
  split_ifs
  · exact ⟨_, _, rfl⟩
  · exact ⟨_, _, rfl⟩

/-- After any run: one live version at most, on top of a stack without repetitions; a rejected
transition changes nothing; the lineages ascend through registered versions. -/
theorem exactly_one_live (hashConfig : ConfigHash) (operations : List RegistryOp) :
    (run hashConfig operations).liveRecords.length ≤ 1 ∧
    (∀ item ∈ (run hashConfig operations).liveRecords,
      (run hashConfig operations).liveStack.getLast? = some item.1) ∧
    (run hashConfig operations).liveStack.Nodup ∧
    (∀ versionId toStatus clock, ¬(run hashConfig operations).Accepts versionId toStatus →
      run hashConfig (operations ++ [.transition versionId toStatus clock]) =
        run hashConfig operations) ∧
    (run hashConfig operations).Lineal := by
  have formed := wellFormed_run hashConfig operations
  refine ⟨formed.length_liveRecords_le, fun item live => formed.top_of_live live,
    formed.unrepeated, fun versionId toStatus clock rejected => ?_,
    lineal_run hashConfig operations⟩
  rw [run_concat]
  exact apply_of_not_accepts hashConfig rejected clock

end TradingControl.StrategyRegistry

/-!
# Pulled versions

A version is pulled by an explicit transition to retired.  No transition leads out of that stage,
but a rollback restores what lies below the top of the stack, and a version that was pulled while it
was live still lies there.
-/

namespace TradingControl.StrategyRegistry

open Python

variable {hashConfig : ConfigHash} {operations : List RegistryOp} {registry : StrategyRegistry}

/-! ## Runs -/

/-- A transition of the run has retired the version. -/
def Pulled (hashConfig : ConfigHash) (operations : List RegistryOp) (versionId : String) : Prop :=
  ∃ before clock after, operations = before ++ .transition versionId .retired clock :: after ∧
    (run hashConfig before).Accepts versionId .retired

/-- A version that was pulled is not live in any later state of the run. -/
def RetiredForGood (hashConfig : ConfigHash) (operations : List RegistryOp) : Prop :=
  ∀ reached, reached <+: operations → ∀ versionId, Pulled hashConfig reached versionId →
    (run hashConfig reached).status versionId ≠ some .live

/-- No rollback of the run finds a pulled version below the top of the stack. -/
def RestoresUnpulled (hashConfig : ConfigHash) (operations : List RegistryOp) : Prop :=
  ∀ before clock after, operations = before ++ .rollback clock :: after →
    ∀ previousId, (run hashConfig before).liveStack.dropLast.getLast? = some previousId →
      ¬Pulled hashConfig before previousId

theorem Pulled.append {versionId : String} (pulled : Pulled hashConfig operations versionId)
    (later : List RegistryOp) : Pulled hashConfig (operations ++ later) versionId := by
  obtain ⟨before, clock, after, rfl, accepted⟩ := pulled
  refine ⟨before, clock, after ++ later, ?_, accepted⟩
  rw [List.append_assoc, List.cons_append]

theorem pulled_concat {operation : RegistryOp} {versionId : String}
    (pulled : Pulled hashConfig (operations ++ [operation]) versionId) :
    Pulled hashConfig operations versionId ∨
      ∃ clock, operation = .transition versionId .retired clock ∧
        (run hashConfig operations).Accepts versionId .retired := by
  obtain ⟨before, clock, after, split, accepted⟩ := pulled
  rcases List.eq_nil_or_concat after with rfl | ⟨between, last, rfl⟩
  · obtain ⟨rfl, same⟩ := List.append_inj' split rfl
    exact Or.inr ⟨clock, List.singleton_injective same, accepted⟩
  · rw [List.concat_eq_append, ← List.cons_append, ← List.append_assoc] at split
    obtain ⟨rfl, -⟩ := List.append_inj' split rfl
    exact Or.inl ⟨before, clock, between, rfl, accepted⟩

theorem RestoresUnpulled.of_append {later : List RegistryOp}
    (unpulled : RestoresUnpulled hashConfig (operations ++ later)) :
    RestoresUnpulled hashConfig operations := by
  intro before clock after split previousId below
  refine unpulled before clock (after ++ later) ?_ previousId below
  rw [split, List.append_assoc, List.cons_append]

/-! ## Retired versions -/

section

variable {versionId : String}

theorem status_register (formed : registry.WellFormed) (hashConfig : ConfigHash)
    (config : List (String × Value)) (parentVersion : Option ℤ) (now : ℚ)
    {held : StrategyStatus} (known : registry.status versionId = some held) :
    (registry.register hashConfig config parentVersion now).2.status versionId = some held := by
  rw [← known]
  simp only [StrategyRegistry.status, get, register]
  rw [Dict.lookup_set, if_neg (formed.ne_unused (hashConfig config) known)]

/-- Retiring the current version leaves a retired one retired. -/
theorem retired_setStatus (retired : registry.status versionId = some .retired)
    (otherId : String) (now : ℚ) :
    (registry.setStatus otherId .retired now).status versionId = some .retired := by
  rw [status_setStatus, retired]
  split_ifs <;> rfl

theorem retired_supersedeCurrentLive (retired : registry.status versionId = some .retired)
    (now : ℚ) : (registry.supersedeCurrentLive now).status versionId = some .retired := by
  rw [supersedeCurrentLive]
  cases registry.liveStack.getLast? with
  | none => exact retired
  | some current => exact retired_setStatus retired current now

theorem retired_transition (retired : registry.status versionId = some .retired)
    (otherId : String) (toStatus : StrategyStatus) (clock : ℕ → ℚ) :
    ((RegistryOp.transition otherId toStatus clock).apply hashConfig registry).status versionId =
      some .retired := by
  rcases apply_transition_cases hashConfig registry otherId toStatus clock with
    same | ⟨strategy, accepted⟩
  · rw [same]
    exact retired
  · obtain ⟨held, known, valid, after⟩ := transition_cases accepted
    have other : versionId ≠ otherId := by
      rintro rfl
      rw [retired] at known
      cases known
      exact absurd valid List.not_mem_nil
    rcases after with ⟨-, after⟩ | ⟨-, after⟩
    · rw [after]
      exact (status_setStatus_other _ other .live (clock 1)).trans
        (retired_supersedeCurrentLive retired (clock 0))
    · rw [after, status_setStatus_other _ other]
      exact retired

/-- A rollback restores only what is below the top of the stack. -/
theorem retired_rollback (retired : registry.status versionId = some .retired)
    (apart : registry.liveStack.dropLast.getLast? ≠ some versionId) (clock : ℕ → ℚ) :
    (registry.rollback clock).2.status versionId = some .retired := by
  rcases rollback_cases clock registry with
    ⟨-, same⟩ | ⟨current, -, ⟨-, after⟩ | ⟨previous, below, after⟩⟩
  · rw [same]
    exact retired
  · rw [after]
    exact retired_setStatus retired current (clock 0)
  · have other : versionId ≠ previous := by
      rintro rfl
      exact apart below
    rw [after]
    exact (status_setStatus_other _ other .live (clock 1)).trans
      (retired_setStatus retired current (clock 0))

theorem retired_of_accepts (accepted : registry.Accepts versionId .retired) (clock : ℕ → ℚ) :
    ((RegistryOp.transition versionId .retired clock).apply hashConfig registry).status versionId =
      some .retired := by
  obtain ⟨strategy, after, succeeded⟩ := transition_of_accepts accepted clock
  rw [apply_of_ok hashConfig succeeded]
  obtain ⟨held, known, -, ⟨live, -⟩ | ⟨-, rfl⟩⟩ := transition_cases succeeded
  · cases live
  · exact status_setStatus_self known .retired (clock 0)

end

/-- As long as rollbacks restore no pulled version, the pulled ones stay retired. -/
theorem retired_of_pulled (unpulled : RestoresUnpulled hashConfig operations) {versionId : String}
    (pulled : Pulled hashConfig operations versionId) :
    (run hashConfig operations).status versionId = some .retired := by
  induction operations using List.reverseRecOn with
  | nil =>
      obtain ⟨before, clock, after, split, -⟩ := pulled
      exact absurd split (by simp)
  | append_singleton operations operation induction =>
      rw [run_concat]
      rcases pulled_concat pulled with earlier | ⟨clock, rfl, accepted⟩
      · have retired := induction unpulled.of_append earlier
        cases operation with
        | register config parentVersion now =>
            exact status_register (wellFormed_run hashConfig operations) hashConfig config
              parentVersion now retired
        | transition otherId toStatus clock =>
            exact retired_transition retired otherId toStatus clock
        | rollback clock =>
            refine retired_rollback retired (fun below => ?_) clock
            exact unpulled operations clock [] rfl versionId below earlier
      · exact retired_of_accepts accepted clock

/-- Retirement is final in a run exactly if no rollback finds a pulled version below the top of the
stack. -/
theorem retiredForGood_iff (hashConfig : ConfigHash) (operations : List RegistryOp) :
    RetiredForGood hashConfig operations ↔ RestoresUnpulled hashConfig operations := by
  constructor
  · rintro final before clock after rfl previousId below pulled
    have reached : before ++ [.rollback clock] <+: before ++ .rollback clock :: after :=
      ⟨after, by simp⟩
    refine final _ reached previousId (pulled.append _) ?_
    rw [run_concat]
    exact status_rollback (wellFormed_run hashConfig before) clock below
  · rintro unpulled reached ⟨later, rfl⟩ versionId pulled live
    rw [retired_of_pulled unpulled.of_append pulled] at live
    cases live

/-! ## A version that comes back -/

/-- The promotion of a version to live, stage by stage. -/
def promotion (versionId : String) : List RegistryOp :=
  [.transition versionId .backtested fun _ => 0, .transition versionId .shadow fun _ => 0,
    .transition versionId .canary fun _ => 0, .transition versionId .live fun _ => 0]

/-- The first version is pulled, the second is promoted and rolled back. -/
def pulledFirst : List RegistryOp :=
  .register [] none 0 :: promotion "v1-" ++
    .transition "v1-" .retired (fun _ => 0) :: .register [] none 0 :: promotion "v2-"

theorem pulled_comes_back :
    ¬RetiredForGood (fun _ => "") (pulledFirst ++ [.rollback fun _ => 0]) := by
  intro final
  have pulled : Pulled (fun _ => "") (pulledFirst ++ [.rollback fun _ => 0]) "v1-" := by
    refine ⟨.register [] none 0 :: promotion "v1-", fun _ => 0, _, rfl, .live, ?_, by decide⟩
    decide +kernel
  refine final _ List.prefix_rfl "v1-" pulled ?_
  decide +kernel

end TradingControl.StrategyRegistry
