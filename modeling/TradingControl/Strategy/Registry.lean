import Mathlib.Data.List.Lattice
import TradingControl.Python.Dict
import TradingControl.Python.Runtime

/-!
# Strategy registry

Strategy versions pass through a lifecycle one stage at a time.  Versions promoted to live are
stacked, the top one is the only one that can be live, and a rollback retires it and restores the
one below.
-/

namespace TradingControl

open Python

/-! ## Versions -/

/-- `StrategyStatus`. -/
inductive StrategyStatus where
  | proposed
  | backtested
  | shadow
  | canary
  | live
  | retired
deriving DecidableEq, Repr

namespace StrategyStatus

/-- `status.value`. -/
def value : StrategyStatus → String
  | .proposed => "proposed"
  | .backtested => "backtested"
  | .shadow => "shadow"
  | .canary => "canary"
  | .live => "live"
  | .retired => "retired"

/-- `_VALID_TRANSITIONS`. -/
def validTransitions : StrategyStatus → List StrategyStatus
  | .proposed => [.backtested, .retired]
  | .backtested => [.shadow, .retired]
  | .shadow => [.canary, .retired]
  | .canary => [.live, .retired]
  | .live => [.retired]
  | .retired => []

theorem canary_of_live_valid {status : StrategyStatus} (valid : .live ∈ status.validTransitions) :
    status = .canary := by
  cases status <;> simp [validTransitions] at valid ⊢

end StrategyStatus

structure StrategyVersion where
  versionId : String
  version : ℕ
  parentVersion : Option ℤ
  configHash : String
  config : List (String × Value)
  lineage : List ℕ
  createdAt : ℚ

structure StrategyRecord where
  strategy : StrategyVersion
  status : StrategyStatus
  history : List (StrategyStatus × ℚ) := []

def versionIdOf (version : ℕ) (configHash : String) : String :=
  "v" ++ Nat.repr version ++ "-" ++ configHash

/-- Ids tell versions apart, whatever their configurations hash to. -/
theorem versionIdOf_version {version other : ℕ} {configHash otherHash : String}
    (same : versionIdOf version configHash = versionIdOf other otherHash) : version = other := by
  have digits : ∀ (version : ℕ) (configHash : String),
      ((versionIdOf version configHash).toList.drop 1).takeWhile Char.isDigit =
        (Nat.repr version).toList := by
    intro version configHash
    have digit : ∀ letter ∈ (Nat.repr version).toList, letter.isDigit = true := by
      intro letter member
      rw [Nat.toList_repr] at member
      exact Nat.isDigit_of_mem_toDigits (by decide) (by decide) member
    simp only [versionIdOf, String.toList_append, List.append_assoc]
    rw [show "v".toList = ['v'] from rfl, List.singleton_append, List.drop_succ_cons,
      List.drop_zero, List.takeWhile_append_of_pos digit, show "-".toList = ['-'] from rfl]
    simp [show Char.isDigit '-' = false from rfl]
  have texts : (Nat.repr version).toList = (Nat.repr other).toList := by
    rw [← digits version configHash, ← digits other otherHash, same]
  exact repr_injective (String.ext texts)

/-! ## Registry -/

structure StrategyRegistry where
  records : Dict String StrategyRecord := []
  nextVersion : ℕ := 1
  /-- Versions promoted to live; the last one is current. -/
  liveStack : List String := []

/-- `_hash_config`. -/
abbrev ConfigHash := List (String × Value) → String

namespace StrategyRegistry

def get (registry : StrategyRegistry) (versionId : String) : Option StrategyRecord :=
  registry.records.lookup versionId

def status (registry : StrategyRegistry) (versionId : String) : Option StrategyStatus :=
  (registry.get versionId).map (·.status)

def versions (registry : StrategyRegistry) : List StrategyVersion :=
  registry.records.map (·.2.strategy)

/-- `_by_version`. -/
def byVersion (registry : StrategyRegistry) : Option ℤ → Option StrategyRecord
  | none => none
  | some version =>
      (registry.records.find? fun item => (item.2.strategy.version : ℤ) = version).map Prod.snd

/-- `_set_status`. -/
def setStatus (registry : StrategyRegistry) (versionId : String) (status : StrategyStatus)
    (now : ℚ) : StrategyRegistry :=
  { registry with
    records := Dict.modify versionId (fun record =>
      { record with status := status, history := record.history ++ [(status, now)] })
      registry.records }

/-- `_supersede_current_live`. -/
def supersedeCurrentLive (registry : StrategyRegistry) (now : ℚ) : StrategyRegistry :=
  match registry.liveStack.getLast? with
  | none => registry
  | some current => registry.setStatus current .retired now

/-- `register`. -/
def register (hashConfig : ConfigHash) (config : List (String × Value)) (parentVersion : Option ℤ)
    (now : ℚ) (registry : StrategyRegistry) : StrategyVersion × StrategyRegistry :=
  let version := registry.nextVersion
  let lineage := match registry.byVersion parentVersion with
    | none => []
    | some parent => parent.strategy.lineage
  let strategy : StrategyVersion :=
    { versionId := versionIdOf version (hashConfig config)
      version
      parentVersion
      configHash := hashConfig config
      config
      lineage := lineage ++ [version]
      createdAt := now }
  (strategy,
    { registry with
      nextVersion := version + 1
      records := Dict.set strategy.versionId { strategy, status := .proposed } registry.records })

/-- `transition`, or the text of the `InvalidTransitionError` it raises. -/
def transition (versionId : String) (toStatus : StrategyStatus) (clock : ℕ → ℚ)
    (registry : StrategyRegistry) : Except String (StrategyVersion × StrategyRegistry) :=
  match registry.get versionId with
  | none => .error ("unknown version " ++ versionId)
  | some record =>
      if toStatus ∉ record.status.validTransitions then
        .error (record.status.value ++ " -> " ++ toStatus.value ++ " is not allowed")
      else if toStatus = .live then
        let superseded := registry.supersedeCurrentLive (clock 0)
        .ok (record.strategy,
          { superseded with liveStack := superseded.liveStack ++ [versionId] }.setStatus versionId
            toStatus (clock 1))
      else .ok (record.strategy, registry.setStatus versionId toStatus (clock 0))

/-- `current_live`. -/
def currentLive (registry : StrategyRegistry) : Option StrategyVersion :=
  (registry.records.find? fun item => item.2.status = .live).map (·.2.strategy)

/-- `rollback`: promoted versions are registered, so that its lookups find them. -/
def rollback (clock : ℕ → ℚ) (registry : StrategyRegistry) :
    Option StrategyVersion × StrategyRegistry :=
  match registry.liveStack.getLast? with
  | none => (none, registry)
  | some current =>
      let retired := { registry with liveStack := registry.liveStack.dropLast }.setStatus current
        .retired (clock 0)
      match retired.liveStack.getLast? with
      | none => (none, retired)
      | some previous =>
          ((retired.get previous).map (·.strategy), retired.setStatus previous .live (clock 1))

end StrategyRegistry

/-- An operation on the registry, with the readings of the clock it takes. -/
inductive RegistryOp where
  | register (config : List (String × Value)) (parentVersion : Option ℤ) (now : ℚ)
  | transition (versionId : String) (toStatus : StrategyStatus) (clock : ℕ → ℚ)
  | rollback (clock : ℕ → ℚ)

/-- Registry after an operation; a rejected transition raises and changes nothing. -/
def RegistryOp.apply (hashConfig : ConfigHash) (registry : StrategyRegistry) :
    RegistryOp → StrategyRegistry
  | .register config parentVersion now =>
      (registry.register hashConfig config parentVersion now).2
  | .transition versionId toStatus clock =>
      match registry.transition versionId toStatus clock with
      | .ok (_, after) => after
      | .error _ => registry
  | .rollback clock => (registry.rollback clock).2

def StrategyRegistry.run (hashConfig : ConfigHash) (operations : List RegistryOp) :
    StrategyRegistry :=
  operations.foldl (RegistryOp.apply hashConfig) {}

/-! ## Well-formed registries -/

namespace StrategyRegistry

/-- What holds of every registry a run reaches. -/
structure WellFormed (registry : StrategyRegistry) : Prop where
  keyed : ∀ item ∈ registry.records, item.2.strategy.versionId = item.1 ∧
    item.1 = versionIdOf item.2.strategy.version item.2.strategy.configHash
  fresh : ∀ item ∈ registry.records, item.2.strategy.version < registry.nextVersion
  distinct : (Dict.keys registry.records).Nodup
  unrepeated : registry.liveStack.Nodup
  promoted : ∀ versionId ∈ registry.liveStack,
    registry.status versionId = some .live ∨ registry.status versionId = some .retired
  top : ∀ versionId, registry.status versionId = some .live →
    registry.liveStack.getLast? = some versionId

theorem wellFormed_empty : WellFormed {} := by
  refine ⟨?_, ?_, ?_, ?_, ?_, ?_⟩ <;> simp [status, get, Dict.keys]

@[simp] theorem liveStack_setStatus (registry : StrategyRegistry) (versionId : String)
    (status : StrategyStatus) (now : ℚ) :
    (registry.setStatus versionId status now).liveStack = registry.liveStack := rfl

theorem status_setStatus (registry : StrategyRegistry) (versionId other : String)
    (status : StrategyStatus) (now : ℚ) :
    (registry.setStatus versionId status now).status other =
      if other = versionId then (registry.status other).map fun _ => status
      else registry.status other := by
  simp only [StrategyRegistry.status, get, setStatus]
  rw [Dict.lookup_modify]
  split_ifs
  · rw [Option.map_map, Option.map_map]
    rfl
  · rfl

theorem status_setStatus_self {registry : StrategyRegistry} {versionId : String}
    {held : StrategyStatus} (known : registry.status versionId = some held)
    (status : StrategyStatus) (now : ℚ) :
    (registry.setStatus versionId status now).status versionId = some status := by
  rw [status_setStatus, if_pos rfl, known]
  rfl

theorem status_setStatus_other (registry : StrategyRegistry) {versionId other : String}
    (different : other ≠ versionId) (status : StrategyStatus) (now : ℚ) :
    (registry.setStatus versionId status now).status other = registry.status other := by
  rw [status_setStatus, if_neg different]

theorem status_of_get {registry : StrategyRegistry} {versionId : String}
    {record : StrategyRecord} (known : registry.get versionId = some record) :
    registry.status versionId = some record.status := by
  rw [StrategyRegistry.status, known]
  rfl

/-! ## What the operations do -/

theorem transition_cases {registry after : StrategyRegistry} {versionId : String}
    {toStatus : StrategyStatus} {clock : ℕ → ℚ} {strategy : StrategyVersion}
    (accepted : registry.transition versionId toStatus clock = .ok (strategy, after)) :
    ∃ held, registry.status versionId = some held ∧ toStatus ∈ held.validTransitions ∧
      ((toStatus = .live ∧ after =
          { (registry.supersedeCurrentLive (clock 0)).setStatus versionId .live (clock 1) with
            liveStack := (registry.supersedeCurrentLive (clock 0)).liveStack ++ [versionId] }) ∨
        (toStatus ≠ .live ∧ after = registry.setStatus versionId toStatus (clock 0))) := by
  rw [transition] at accepted
  split at accepted
  · cases accepted
  · next record known =>
      split_ifs at accepted with valid live
      · obtain ⟨-, rfl⟩ := Prod.mk.inj (Except.ok.inj accepted)
        subst live
        exact ⟨record.status, status_of_get known, valid, Or.inl ⟨rfl, rfl⟩⟩
      · obtain ⟨-, rfl⟩ := Prod.mk.inj (Except.ok.inj accepted)
        exact ⟨record.status, status_of_get known, valid, Or.inr ⟨live, rfl⟩⟩

/-- A rollback takes the top version off the stack and retires it, and the one below goes live. -/
theorem rollback_cases (clock : ℕ → ℚ) (registry : StrategyRegistry) :
    (registry.liveStack.getLast? = none ∧ (registry.rollback clock).2 = registry) ∨
      ∃ current, registry.liveStack.getLast? = some current ∧
        ((registry.liveStack.dropLast.getLast? = none ∧ (registry.rollback clock).2 =
            { registry.setStatus current .retired (clock 0) with
              liveStack := registry.liveStack.dropLast }) ∨
          ∃ previous, registry.liveStack.dropLast.getLast? = some previous ∧
            (registry.rollback clock).2 =
              { (registry.setStatus current .retired (clock 0)).setStatus previous .live
                  (clock 1) with liveStack := registry.liveStack.dropLast }) := by
  rw [rollback]
  cases current : registry.liveStack.getLast? with
  | none => exact Or.inl ⟨rfl, rfl⟩
  | some currentId =>
      dsimp only
      rw [liveStack_setStatus]
      cases below : registry.liveStack.dropLast.getLast? with
      | none => exact Or.inr ⟨currentId, rfl, Or.inl ⟨rfl, rfl⟩⟩
      | some previousId => exact Or.inr ⟨currentId, rfl, Or.inr ⟨previousId, rfl, rfl⟩⟩

theorem WellFormed.unused {registry : StrategyRegistry} (formed : registry.WellFormed)
    (configHash : String) :
    versionIdOf registry.nextVersion configHash ∉ Dict.keys registry.records := by
  intro member
  obtain ⟨item, present, same⟩ := List.mem_map.mp member
  rw [(formed.keyed item present).2] at same
  exact absurd (versionIdOf_version same) (formed.fresh item present).ne

theorem WellFormed.ne_unused {registry : StrategyRegistry} (formed : registry.WellFormed)
    (configHash : String) {versionId : String} {held : StrategyStatus}
    (known : registry.status versionId = some held) :
    versionId ≠ versionIdOf registry.nextVersion configHash := by
  rintro rfl
  obtain ⟨record, present, -⟩ := Option.map_eq_some_iff.mp known
  exact formed.unused configHash (Dict.mem_keys_of_mem (Dict.mem_of_lookup present))

/-! ## Operations on well-formed registries -/

/-- A new status leaves the identities alone, so only the stack is to be checked. -/
theorem WellFormed.setStatus {registry : StrategyRegistry} (formed : registry.WellFormed)
    (versionId : String) (status : StrategyStatus) (now : ℚ) (stack : List String)
    (unrepeated : stack.Nodup)
    (promoted : ∀ promotedId ∈ stack,
      (registry.setStatus versionId status now).status promotedId = some .live ∨
        (registry.setStatus versionId status now).status promotedId = some .retired)
    (top : ∀ liveId, (registry.setStatus versionId status now).status liveId = some .live →
      stack.getLast? = some liveId) :
    WellFormed { registry.setStatus versionId status now with liveStack := stack } := by
  have same : ∀ item ∈ (registry.setStatus versionId status now).records,
      ∃ record, (item.1, record) ∈ registry.records ∧ record.strategy = item.2.strategy := by
    intro item member
    obtain ⟨⟨held, record⟩, present, rfl⟩ := List.mem_map.mp member
    refine ⟨record, present, ?_⟩
    dsimp only
    split_ifs <;> rfl
  refine ⟨fun item member => ?_, fun item member => ?_, ?_, unrepeated, promoted, top⟩
  · obtain ⟨record, present, strategy⟩ := same item member
    rw [← strategy]
    exact formed.keyed _ present
  · obtain ⟨record, present, strategy⟩ := same item member
    rw [← strategy]
    exact formed.fresh _ present
  · have keys : Dict.keys (registry.setStatus versionId status now).records =
        Dict.keys registry.records := by
      simp [StrategyRegistry.setStatus]
    dsimp only
    rw [keys]
    exact formed.distinct

theorem wellFormed_register {registry : StrategyRegistry} (formed : registry.WellFormed)
    (hashConfig : ConfigHash) (config : List (String × Value)) (parentVersion : Option ℤ)
    (now : ℚ) : WellFormed (registry.register hashConfig config parentVersion now).2 := by
  obtain ⟨strategy, versionId, version, configHash, records, next, stack⟩ :
      ∃ strategy : StrategyVersion,
        strategy.versionId = versionIdOf registry.nextVersion (hashConfig config) ∧
        strategy.version = registry.nextVersion ∧ strategy.configHash = hashConfig config ∧
        (registry.register hashConfig config parentVersion now).2.records =
          Dict.set strategy.versionId { strategy, status := .proposed } registry.records ∧
        (registry.register hashConfig config parentVersion now).2.nextVersion =
          registry.nextVersion + 1 ∧
        (registry.register hashConfig config parentVersion now).2.liveStack =
          registry.liveStack :=
    ⟨(registry.register hashConfig config parentVersion now).1, rfl, rfl, rfl, rfl, rfl, rfl⟩
  generalize (registry.register hashConfig config parentVersion now).2 = after
    at records next stack ⊢
  have absent : strategy.versionId ∉ Dict.keys registry.records := by
    rw [versionId]
    exact formed.unused (hashConfig config)
  have status : ∀ other, after.status other =
      if other = strategy.versionId then some .proposed else registry.status other := by
    intro other
    rw [StrategyRegistry.status, get]
    rw [records, Dict.lookup_set]
    split_ifs <;> rfl
  have known : ∀ other held, registry.status other = some held → other ≠ strategy.versionId := by
    intro other held found
    rw [versionId]
    exact formed.ne_unused (hashConfig config) found
  rw [Dict.set_of_not_mem _ absent] at records
  refine ⟨fun item member => ?_, fun item member => ?_, ?_, ?_, fun promotedId member => ?_,
    fun liveId live => ?_⟩
  · rw [records, List.mem_append, List.mem_singleton] at member
    rcases member with present | rfl
    · exact formed.keyed item present
    · exact ⟨rfl, by rw [versionId, version, configHash]⟩
  · rw [records, List.mem_append, List.mem_singleton] at member
    rw [next]
    rcases member with present | rfl
    · exact Nat.lt_succ_of_lt (formed.fresh item present)
    · rw [version]
      exact Nat.lt_succ_self _
  · rw [records, Dict.keys, List.map_append]
    refine List.nodup_append.mpr ⟨formed.distinct, by simp, ?_⟩
    rintro held member _ last rfl
    rw [List.map_singleton, List.mem_singleton] at last
    rw [last] at member
    exact absent member
  · rw [stack]
    exact formed.unrepeated
  · rw [stack] at member
    have held := formed.promoted promotedId member
    have other : promotedId ≠ strategy.versionId := by
      rcases held with live | retired
      · exact known _ _ live
      · exact known _ _ retired
    rw [status, if_neg other]
    exact held
  · rw [status] at live
    split_ifs at live with own
    · simp at live
    · rw [stack]
      exact formed.top liveId live

theorem wellFormed_stage {registry : StrategyRegistry} (formed : registry.WellFormed)
    {versionId : String} {held toStatus : StrategyStatus}
    (known : registry.status versionId = some held) (valid : toStatus ∈ held.validTransitions)
    (notLive : toStatus ≠ .live) (now : ℚ) :
    WellFormed (registry.setStatus versionId toStatus now) := by
  refine formed.setStatus versionId toStatus now registry.liveStack formed.unrepeated
    (fun promotedId member => ?_) (fun liveId live => ?_)
  · have before := formed.promoted promotedId member
    by_cases own : promotedId = versionId
    · subst own
      rw [status_setStatus_self known]
      rw [known, Option.some.injEq, Option.some.injEq] at before
      right
      -- a promoted version can only be retired
      rcases before with rfl | rfl
      · simpa [StrategyStatus.validTransitions] using valid
      · simp [StrategyStatus.validTransitions] at valid
    · rw [status_setStatus_other registry own]
      exact before
  · by_cases own : liveId = versionId
    · subst own
      rw [status_setStatus_self known] at live
      exact absurd (Option.some.inj live) notLive
    · rw [status_setStatus_other registry own] at live
      exact formed.top liveId live

theorem status_supersedeCurrentLive {registry : StrategyRegistry} {versionId : String}
    (held : StrategyStatus) (notLive : held ≠ .live) (notRetired : held ≠ .retired) (now : ℚ)
    (formed : registry.WellFormed) :
    (registry.supersedeCurrentLive now).status versionId = some held ↔
      registry.status versionId = some held := by
  rw [supersedeCurrentLive]
  cases current : registry.liveStack.getLast? with
  | none => rfl
  | some currentId =>
      dsimp only
      by_cases own : versionId = currentId
      · subst own
        rcases formed.promoted versionId (List.mem_of_getLast? current) with known | known
        · rw [status_setStatus_self known, known]
          simp [notLive.symm, notRetired.symm]
        · rw [status_setStatus_self known, known]
      · rw [status_setStatus_other registry own]

/-- Once the top version is retired none is live. -/
theorem wellFormed_retire {registry : StrategyRegistry} (formed : registry.WellFormed)
    {currentId : String} (current : registry.liveStack.getLast? = some currentId) (now : ℚ)
    {stack : List String} (kept : stack.Sublist registry.liveStack) :
    WellFormed { registry.setStatus currentId .retired now with liveStack := stack } ∧
      ∀ versionId, (registry.setStatus currentId .retired now).status versionId ≠ some .live := by
  have noneLive : ∀ versionId,
      (registry.setStatus currentId .retired now).status versionId ≠ some .live := by
    intro versionId live
    rw [status_setStatus] at live
    split_ifs at live with own
    · simp at live
    · have last := formed.top versionId live
      rw [current] at last
      exact own (Option.some.inj last).symm
  refine ⟨formed.setStatus currentId .retired now stack (formed.unrepeated.sublist kept)
    (fun promotedId member => ?_) (fun versionId live => absurd live (noneLive versionId)),
    noneLive⟩
  rw [status_setStatus]
  have before := formed.promoted promotedId (kept.subset member)
  split_ifs with own
  · right
    rcases before with known | known <;> simp [known]
  · exact before

/-- The current version is retired before another one is promoted. -/
theorem wellFormed_supersede {registry : StrategyRegistry} (formed : registry.WellFormed)
    (now : ℚ) : WellFormed (registry.supersedeCurrentLive now) ∧
      ∀ versionId, (registry.supersedeCurrentLive now).status versionId ≠ some .live := by
  rw [supersedeCurrentLive]
  cases current : registry.liveStack.getLast? with
  | none =>
      refine ⟨formed, fun versionId live => ?_⟩
      have last := formed.top versionId live
      rw [current] at last
      cases last
  | some currentId => exact wellFormed_retire formed current now (List.Sublist.refl _)

/-- A version goes live out of canary, where it has never been promoted. -/
theorem wellFormed_promote {registry : StrategyRegistry} (formed : registry.WellFormed)
    {versionId : String} (canary : registry.status versionId = some .canary) (clock : ℕ → ℚ) :
    WellFormed { (registry.supersedeCurrentLive (clock 0)).setStatus versionId .live (clock 1) with
      liveStack := (registry.supersedeCurrentLive (clock 0)).liveStack ++ [versionId] } := by
  obtain ⟨supersededFormed, noneLive⟩ := wellFormed_supersede formed (clock 0)
  have kept := (status_supersedeCurrentLive .canary (by decide) (by decide) (clock 0)
    formed).mpr canary
  generalize registry.supersedeCurrentLive (clock 0) = superseded
    at supersededFormed noneLive kept ⊢
  have absent : versionId ∉ superseded.liveStack := by
    intro member
    have promoted := supersededFormed.promoted versionId member
    rw [kept] at promoted
    simp at promoted
  refine supersededFormed.setStatus versionId .live (clock 1)
    (superseded.liveStack ++ [versionId]) ?_ (fun promotedId member => ?_)
    (fun liveId live => ?_)
  · refine List.nodup_append.mpr ⟨supersededFormed.unrepeated, by simp, ?_⟩
    rintro held member _ last rfl
    rw [List.mem_singleton] at last
    rw [last] at member
    exact absent member
  · by_cases own : promotedId = versionId
    · subst own
      exact Or.inl (status_setStatus_self kept .live (clock 1))
    · rw [status_setStatus_other superseded own]
      rcases List.mem_append.mp member with earlier | last
      · exact supersededFormed.promoted promotedId earlier
      · exact absurd (List.mem_singleton.mp last) own
  · by_cases own : liveId = versionId
    · rw [own, List.getLast?_append, List.getLast?_singleton]
      rfl
    · rw [status_setStatus_other superseded own] at live
      exact absurd live (noneLive liveId)

theorem wellFormed_transition {registry after : StrategyRegistry} (formed : registry.WellFormed)
    {versionId : String} {toStatus : StrategyStatus} {clock : ℕ → ℚ} {strategy : StrategyVersion}
    (accepted : registry.transition versionId toStatus clock = .ok (strategy, after)) :
    after.WellFormed := by
  obtain ⟨held, status, valid, ⟨rfl, rfl⟩ | ⟨notLive, rfl⟩⟩ := transition_cases accepted
  · rw [StrategyStatus.canary_of_live_valid valid] at status
    exact wellFormed_promote formed status clock
  · exact wellFormed_stage formed status valid notLive (clock 0)

theorem liveStack_rollback (clock : ℕ → ℚ) (registry : StrategyRegistry) :
    (registry.rollback clock).2.liveStack = registry.liveStack.dropLast := by
  rcases rollback_cases clock registry with
    ⟨empty, same⟩ | ⟨current, -, ⟨-, after⟩ | ⟨previous, -, after⟩⟩
  · rw [same, List.getLast?_eq_none_iff.mp empty]
    rfl
  · rw [after]
  · rw [after]

theorem wellFormed_rollback {registry : StrategyRegistry} (formed : registry.WellFormed)
    (clock : ℕ → ℚ) : WellFormed (registry.rollback clock).2 := by
  rcases rollback_cases clock registry with
    ⟨-, same⟩ | ⟨currentId, current, ⟨-, after⟩ | ⟨previousId, below, after⟩⟩
  · rw [same]
    exact formed
  · rw [after]
    exact (wellFormed_retire formed current (clock 0)
      (List.dropLast_sublist registry.liveStack)).1
  · obtain ⟨retiredFormed, noneLive⟩ := wellFormed_retire formed current (clock 0)
      (List.dropLast_sublist registry.liveStack)
    rw [after]
    refine retiredFormed.setStatus previousId .live (clock 1) registry.liveStack.dropLast
      retiredFormed.unrepeated (fun promotedId promoted => ?_) (fun liveId live => ?_)
    · have before := retiredFormed.promoted promotedId promoted
      rw [status_setStatus]
      split_ifs with own
      · left
        subst own
        rcases before with known | known <;> simp [known]
      · exact before
    · rw [status_setStatus] at live
      split_ifs at live with own
      · rw [own]
        exact below
      · exact absurd live (noneLive liveId)

/-- The version below the top one is restored. -/
theorem status_rollback {registry : StrategyRegistry} (formed : registry.WellFormed)
    (clock : ℕ → ℚ) {previousId : String}
    (below : registry.liveStack.dropLast.getLast? = some previousId) :
    (registry.rollback clock).2.status previousId = some .live := by
  have member : previousId ∈ registry.liveStack.dropLast := List.mem_of_getLast? below
  rcases rollback_cases clock registry with
    ⟨empty, -⟩ | ⟨currentId, current, ⟨nothing, -⟩ | ⟨restored, found, after⟩⟩
  · rw [List.getLast?_eq_none_iff.mp empty] at member
    cases member
  · rw [nothing] at below
    cases below
  · obtain rfl : previousId = restored := Option.some.inj (below.symm.trans found)
    obtain ⟨retiredFormed, -⟩ := wellFormed_retire formed current (clock 0)
      (List.dropLast_sublist registry.liveStack)
    rw [after]
    rcases retiredFormed.promoted previousId member with known | known
    · exact status_setStatus_self known .live (clock 1)
    · exact status_setStatus_self known .live (clock 1)

theorem apply_of_ok {registry after : StrategyRegistry} (hashConfig : ConfigHash)
    {versionId : String} {toStatus : StrategyStatus} {clock : ℕ → ℚ} {strategy : StrategyVersion}
    (accepted : registry.transition versionId toStatus clock = .ok (strategy, after)) :
    (RegistryOp.transition versionId toStatus clock).apply hashConfig registry = after := by
  simp only [RegistryOp.apply, accepted]

/-- A transition is rejected, and changes nothing, or it is accepted. -/
theorem apply_transition_cases (hashConfig : ConfigHash) (registry : StrategyRegistry)
    (versionId : String) (toStatus : StrategyStatus) (clock : ℕ → ℚ) :
    (RegistryOp.transition versionId toStatus clock).apply hashConfig registry = registry ∨
      ∃ strategy, registry.transition versionId toStatus clock = .ok (strategy,
        (RegistryOp.transition versionId toStatus clock).apply hashConfig registry) := by
  cases outcome : registry.transition versionId toStatus clock with
  | error message =>
      left
      simp only [RegistryOp.apply, outcome]
  | ok result =>
      obtain ⟨strategy, after⟩ := result
      right
      rw [apply_of_ok hashConfig outcome]
      exact ⟨strategy, rfl⟩

theorem wellFormed_apply {registry : StrategyRegistry} (formed : registry.WellFormed)
    (hashConfig : ConfigHash) (operation : RegistryOp) :
    WellFormed (operation.apply hashConfig registry) := by
  cases operation with
  | register config parentVersion now =>
      exact wellFormed_register formed hashConfig config parentVersion now
  | transition versionId toStatus clock =>
      rcases apply_transition_cases hashConfig registry versionId toStatus clock with
        same | ⟨strategy, accepted⟩
      · rw [same]
        exact formed
      · exact wellFormed_transition formed accepted
  | rollback clock => exact wellFormed_rollback formed clock

theorem wellFormed_run (hashConfig : ConfigHash) (operations : List RegistryOp) :
    WellFormed (run hashConfig operations) := by
  rw [run]
  have step : ∀ (operations : List RegistryOp) (registry : StrategyRegistry),
      registry.WellFormed →
        WellFormed (operations.foldl (RegistryOp.apply hashConfig) registry) := by
    intro operations
    induction operations with
    | nil => exact fun registry formed => formed
    | cons operation rest induction =>
        exact fun registry formed => induction _ (wellFormed_apply formed hashConfig operation)
  exact step operations {} wellFormed_empty

/-! ## The live version -/

theorem WellFormed.currentLive {registry : StrategyRegistry} (formed : registry.WellFormed)
    {strategy : StrategyVersion} (live : registry.currentLive = some strategy) :
    registry.liveStack.getLast? = some strategy.versionId := by
  obtain ⟨⟨versionId, record⟩, found, rfl⟩ := Option.map_eq_some_iff.mp live
  have member := List.mem_of_find?_eq_some found
  have status : record.status = .live := by simpa using List.find?_some found
  have known : registry.get versionId = some record := Dict.lookup_of_mem formed.distinct member
  rw [(formed.keyed _ member).1]
  refine formed.top versionId ?_
  rw [StrategyRegistry.status, known, Option.map_some, status]

theorem currentLive_isSome {registry : StrategyRegistry} {versionId : String}
    (live : registry.status versionId = some .live) : registry.currentLive.isSome := by
  obtain ⟨record, known, status⟩ := Option.map_eq_some_iff.mp live
  have member := Dict.mem_of_lookup known
  rw [StrategyRegistry.currentLive, Option.isSome_map, List.find?_isSome]
  exact ⟨_, member, by simpa using status⟩

end StrategyRegistry

end TradingControl
