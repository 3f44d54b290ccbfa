import TradingControl.Cognitive.Evolution
import TradingControl.Cognitive.QueueUpdates
import TradingControl.Cognitive.Runs

/-!
# Merges of approved proposals

A merge replaces the whole configuration by a candidate that was built when its proposal was judged.
What other merges have changed since then is lost, and the version of the candidate says nothing of
them.
-/

namespace TradingControl.Cognitive

open Python

/-! ## Approved proposals -/

/-- A proposal with its evidence and the configuration it was judged on. -/
structure Approval where
  base : CognitiveConfig
  proposal : Proposal
  judgement : Judgement

/-- Some cycle of the run approved the proposal. -/
def ApprovedIn (runtime : Runtime) (start : Loop) (operations : List LoopOp)
    (approval : Approval) : Prop :=
  ∃ index call, operations[index]? = some (.evolve call) ∧
    let active := start.run runtime (operations.take index)
    (active.evolve runtime call).1 = .ok (some (.judged approval.proposal approval.judgement)) ∧
      approval.judgement.verdict.approved = true ∧ active.config = approval.base

def approvalAt (runtime : Runtime) (start : Loop) (operations : List LoopOp) (index : ℕ) :
    Option Approval :=
  let active := start.run runtime (operations.take index)
  match operations[index]? with
  | some (.evolve call) =>
      match (active.evolve runtime call).1 with
      | .ok (some (.judged proposal judgement)) =>
          if judgement.verdict.approved then some ⟨active.config, proposal, judgement⟩ else none
      | _ => none
  | _ => none

theorem approvedIn_of_approvalAt {runtime : Runtime} {start : Loop} {operations : List LoopOp}
    {index : ℕ} {approval : Approval}
    (found : approvalAt runtime start operations index = some approval) :
    ApprovedIn runtime start operations approval := by
  unfold approvalAt at found
  dsimp only at found
  split at found
  · next call operation =>
      split at found
      · next proposal judgement result =>
          split_ifs at found with approved
          obtain rfl := Option.some.inj found
          exact ⟨index, call, operation, result, approved, rfl⟩
      · cases found
  · cases found

theorem candidate_of_approved {runtime : Runtime} {start : Loop} {operations : List LoopOp}
    {approval : Approval} (approved : ApprovedIn runtime start operations approval) :
    applyProposalToConfig runtime approval.base approval.proposal =
      .ok (some approval.judgement.candidateConfig) := by
  obtain ⟨index, call, -, result, -, base⟩ := approved
  rw [← base]
  have outcome := Loop.evolve_outcome runtime (start.run runtime (operations.take index)) call
  rw [result] at outcome
  generalize ((start.run runtime (operations.take index)).evolve runtime call).2.queue = queue
    at outcome
  cases outcome with
  | idle _ none => exact absurd rfl (none _)
  | settled _ _ candidate => exact candidate approval.judgement rfl

/-! ## Merging -/

/-- The merge of an approved proposal, with the metrics the reviewer enters. -/
structure ApprovedMerge where
  approval : Approval
  sharpe : ℚ := 0
  maxDrawdownPct : ℚ := 0

namespace ApprovedMerge

/-- The operation of the loop. -/
def asLoopOp (merge : ApprovedMerge) : LoopOp :=
  .merge
    { candidate := merge.approval.judgement.candidateConfig
      sharpe := merge.sharpe
      maxDrawdownPct := merge.maxDrawdownPct
      proposalId := some merge.approval.proposal.proposalId }

/-- The value that the merge is about. -/
def target (merge : ApprovedMerge) : Option ConfigField := merge.approval.proposal.field

/-- The new value of the proposal, if it is a number. -/
def newValue (runtime : Runtime) (merge : ApprovedMerge) : Option ℚ :=
  (runtime.toFloat merge.approval.proposal.newValue).toOption

end ApprovedMerge

def mergedConfig (runtime : Runtime) (loop : Loop) (merges : List ApprovedMerge) :
    CognitiveConfig :=
  (loop.run runtime (merges.map (·.asLoopOp))).config

/-- What a value should be after merges: the new value of the last one about it, or else the old
value. -/
def expectedValue (runtime : Runtime) (config : CognitiveConfig) (merges : List ApprovedMerge)
    (field : ConfigField) : Option ℚ :=
  match merges.reverse.find? (·.target = some field) with
  | some merge => merge.newValue runtime
  | none => config.valueOf field

/-- No update is lost: after every merge each value is as expected, and the version has grown. -/
structure KeepsUpdates (runtime : Runtime) (loop : Loop) (merges : List ApprovedMerge) : Prop where
  values : ∀ count field, (mergedConfig runtime loop (merges.take count)).valueOf field =
    expectedValue runtime loop.config (merges.take count) field
  versions : ∀ count, count < merges.length →
    (mergedConfig runtime loop (merges.take count)).version <
      (mergedConfig runtime loop (merges.take (count + 1))).version

/-- The merge fits the active configuration: its base agrees with it outside of the target and is no
older, and its new value is one that the loop sets as it is. -/
structure FitsActive (runtime : Runtime) (active : CognitiveConfig) (merge : ApprovedMerge) :
    Prop where
  others : ∀ field, merge.target ≠ some field →
    merge.approval.base.valueOf field = active.valueOf field
  version : active.version ≤ merge.approval.base.version
  value : ∃ x, merge.newValue runtime = some x ∧
    (merge.approval.proposal.proposalType = "weight_change" →
      weightBounds.low ≤ x ∧ x ≤ weightBounds.high)

/-! ## One merge -/

/-- One merge loses no update. -/
structure KeepsStep (runtime : Runtime) (active : CognitiveConfig) (merge : ApprovedMerge) :
    Prop where
  values : ∀ field, merge.approval.judgement.candidateConfig.valueOf field =
    if merge.target = some field then merge.newValue runtime else active.valueOf field
  version : active.version < merge.approval.judgement.candidateConfig.version

theorem setValue_of_number {runtime : Runtime} {proposal : Proposal} {x : ℚ}
    (number : runtime.toFloat proposal.newValue = .ok x) :
    proposal.setValue runtime =
      .ok (if proposal.proposalType = "weight_change" then clampWeight x else x) := by
  rw [Proposal.setValue]
  split_ifs
  · have clamped : clampedWeight runtime proposal.newValue =
        (runtime.toFloat proposal.newValue).map clampWeight := by
      cases shape : proposal.newValue with
      | nonFinite value => simp [shape, Runtime.toFloat] at number
      | _ => rfl
    rw [clamped, number]
    rfl
  · exact number

theorem clampWeight_eq {x : ℚ} (low : weightBounds.low ≤ x) (high : x ≤ weightBounds.high) :
    clampWeight x = x := by
  rw [clampWeight, min_eq_right high, max_eq_right low]

theorem bounds_of_weight {proposal : Proposal} {field : ConfigField}
    (weight : proposal.proposalType = "weight_change") (target : proposal.field = some field) :
    field.bounds = weightBounds := by
  rw [Proposal.field, if_pos weight] at target
  have path := ConfigField.path_of_ofPath target
  cases field <;> first | rfl | simp [ConfigField.path] at path

/-- A merge loses no update exactly where it fits the active configuration. -/
theorem keepsStep_iff {runtime : Runtime} {active : CognitiveConfig} {merge : ApprovedMerge}
    (applied : applyProposalToConfig runtime merge.approval.base merge.approval.proposal =
      .ok (some merge.approval.judgement.candidateConfig)) :
    KeepsStep runtime active merge ↔ FitsActive runtime active merge := by
  obtain ⟨target, values, field, candidate, safe, set, others⟩ := applied_spec applied
  have held : ∀ other, merge.approval.judgement.candidateConfig.valueOf other =
      some (values other) := by
    intro other
    rw [candidate, CognitiveConfig.valueOf_ofValues]
  have version : merge.approval.judgement.candidateConfig.version =
      merge.approval.base.version + 1 := by
    rw [candidate]
    rfl
  have apart : ∀ other, merge.target ≠ some other ↔ other ≠ target := by
    intro other
    rw [ApprovedMerge.target, field, ne_eq, Option.some.injEq, eq_comm]
  constructor
  · intro keeps
    refine ⟨fun other differs => ?_, ?_, values target, ?_, fun weight => ?_⟩
    · rw [others other ((apart other).mp differs), ← held, keeps.values, if_neg differs]
    · have grown := keeps.version
      omega
    · rw [← held, keeps.values, if_pos (show merge.target = some target from field)]
    · rw [← bounds_of_weight weight field]
      exact ⟨safe.low target, safe.high target⟩
  · intro fits
    obtain ⟨x, number, within⟩ := fits.value
    have read : runtime.toFloat merge.approval.proposal.newValue = .ok x := by
      rw [ApprovedMerge.newValue] at number
      cases outcome : runtime.toFloat merge.approval.proposal.newValue with
      | error error => simp [outcome, Except.toOption] at number
      | ok y => simpa [outcome, Except.toOption] using number
    have kept : x = values target := by
      rw [setValue_of_number read] at set
      split_ifs at set with weight
      · rw [clampWeight_eq (within weight).1 (within weight).2] at set
        exact Except.ok.inj set
      · exact Except.ok.inj set
    refine ⟨fun other => ?_, ?_⟩
    · split_ifs with same
      · rw [ApprovedMerge.target, field] at same
        rw [held, number, kept, Option.some.inj same]
      · rw [held, ← fits.others other same, others other ((apart other).mp same)]
    · have kept := fits.version
      omega

/-! ## Several merges -/

theorem mergedConfig_append (runtime : Runtime) (loop : Loop) (merges : List ApprovedMerge)
    (merge : ApprovedMerge) :
    mergedConfig runtime loop (merges ++ [merge]) = merge.approval.judgement.candidateConfig := by
  rw [mergedConfig, Loop.run]
  rw [List.map_append, List.foldl_append]
  rfl

theorem expectedValue_append (runtime : Runtime) (config : CognitiveConfig)
    (merges : List ApprovedMerge) (merge : ApprovedMerge) (field : ConfigField) :
    expectedValue runtime config (merges ++ [merge]) field =
      if merge.target = some field then merge.newValue runtime
      else expectedValue runtime config merges field := by
  simp only [expectedValue]
  rw [List.reverse_append, List.reverse_singleton, List.singleton_append, List.find?_cons]
  split_ifs with same <;> simp [same]

/-- No update is lost exactly where every merge keeps what is active before it. -/
theorem keepsUpdates_iff_steps (runtime : Runtime) (loop : Loop) (merges : List ApprovedMerge) :
    KeepsUpdates runtime loop merges ↔ ∀ count merge, merges[count]? = some merge →
      KeepsStep runtime (mergedConfig runtime loop (merges.take count)) merge := by
  have next : ∀ count merge, merges[count]? = some merge →
      merges.take (count + 1) = merges.take count ++ [merge] :=
    fun count merge found => by rw [List.take_add_one, found, Option.toList_some]
  constructor
  · intro keeps count merge found
    have after := keeps.values (count + 1)
    have grown := keeps.versions count (List.getElem?_eq_some_iff.mp found).1
    rw [next count merge found, mergedConfig_append] at after grown
    refine ⟨fun field => ?_, grown⟩
    rw [after, expectedValue_append, keeps.values count]
  · intro steps
    refine ⟨fun count => ?_, fun count within => ?_⟩
    · induction count with
      | zero => exact fun _ => rfl
      | succ count induction =>
          intro field
          cases found : merges[count]? with
          | none =>
              rw [List.take_add_one, found]
              simpa using induction field
          | some merge =>
              rw [next count merge found, mergedConfig_append, expectedValue_append,
                (steps count merge found).values, induction]
    · obtain ⟨merge, found⟩ : ∃ merge, merges[count]? = some merge :=
        ⟨_, List.getElem?_eq_getElem within⟩
      rw [next count merge found, mergedConfig_append]
      exact (steps count merge found).version

/-- Merging approved proposals one after another loses no update exactly where every merge fits the
configuration that is active before it. -/
theorem keepsUpdates_iff (runtime : Runtime) (start : Loop) (operations : List LoopOp)
    (merges : List ApprovedMerge)
    (approved : ∀ merge ∈ merges, ApprovedIn runtime start operations merge.approval) :
    KeepsUpdates runtime (start.run runtime operations) merges ↔
      ∀ count merge, merges[count]? = some merge → FitsActive runtime
        (mergedConfig runtime (start.run runtime operations) (merges.take count)) merge := by
  rw [keepsUpdates_iff_steps]
  refine forall_congr' fun count => forall_congr' fun merge => forall_congr' fun found => ?_
  exact keepsStep_iff (candidate_of_approved (approved merge (List.mem_of_getElem? found)))

/-! ## Two proposals from one base -/

/-- A trade without profit. -/
def evenTrade : TradeOutcome where
  realizedPnl := 0
  realizedPnlPct := 0
  maxAdversePct := 0
  slippageBps := 2
  side := "buy"
  entryPrice := 100
  windowLow := 99
  windowHigh := 101

/-- A cycle that proposes less weight for a signal, on a flat market in which the news change every
bar and the price jumps at the end: fewer trades cost less. -/
def lessWeight (signal : String) (oldValue : ℚ) : EvolveCall where
  propose _ _ _ := .ok (some (.weightChange Reference.runtime signal oldValue
    (oldValue - 5 / 100) "" ""))
  prices := List.replicate 34 100 ++ [105]
  split := 0
  news := some ((List.range 32).map (fun index => if index % 2 = 0 then 1 else -1) ++
    [48 / 100, -1, 0])
  folds := 1

/-- Enough trades to learn from, and two cycles with the same active configuration. -/
def twoCycles : List LoopOp :=
  List.replicate 30 (.closeTrade "" evenTrade) ++
    [.evolve (lessWeight "news" (34 / 100)), .evolve (lessWeight "macro" (33 / 100))]

def twoMerges : List ApprovedMerge :=
  ((List.range 32).filterMap
    (approvalAt Reference.runtime (.init {} defaultConfig) twoCycles)).map fun approval =>
      { approval }

theorem twoMerges_approved (merge : ApprovedMerge) (member : merge ∈ twoMerges) :
    ApprovedIn Reference.runtime (.init {} defaultConfig) twoCycles merge.approval := by
  obtain ⟨approval, found, rfl⟩ := List.mem_map.mp member
  obtain ⟨index, -, same⟩ := List.mem_filterMap.mp found
  exact approvedIn_of_approvalAt same

/-- Both cycles approve, and the second candidate has the old weight of the news. -/
theorem twoMerges_values :
    twoMerges.map (fun merge => (merge.target, merge.newValue Reference.runtime,
      merge.approval.judgement.candidateConfig.valueOf .newsWeight)) =
    [(some .newsWeight, some (29 / 100), some (29 / 100)),
      (some .macroWeight, some (28 / 100), some (34 / 100))] := by
  decide +kernel

/-- The two merges, judged by whether each fits the configuration before it. -/
theorem twoMerges_judged :
    twoMerges.length = 2 ∧
      (KeepsUpdates Reference.runtime
          ((Loop.init {} defaultConfig).run Reference.runtime twoCycles) twoMerges ↔
        ∀ count merge, twoMerges[count]? = some merge → FitsActive Reference.runtime
          (mergedConfig Reference.runtime
            ((Loop.init {} defaultConfig).run Reference.runtime twoCycles)
            (twoMerges.take count)) merge) := by
  refine ⟨?_, keepsUpdates_iff _ _ _ _ twoMerges_approved⟩
  simpa using congrArg List.length twoMerges_values

/-- The second merge undoes the first. -/
theorem secondMerge_losesFirst :
    (∀ merge ∈ twoMerges,
      ApprovedIn Reference.runtime (.init {} defaultConfig) twoCycles merge.approval) ∧
    ¬KeepsUpdates Reference.runtime
      ((Loop.init {} defaultConfig).run Reference.runtime twoCycles) twoMerges := by
  refine ⟨twoMerges_approved, fun keeps => ?_⟩
  have values := twoMerges_values
  generalize twoMerges = merges at keeps values
  rcases merges with _ | ⟨first, _ | ⟨second, _ | ⟨third, rest⟩⟩⟩
  · cases values
  · simp at values
  · simp only [List.map_cons, List.map_nil, List.cons.injEq, Prod.mk.injEq, and_true] at values
    obtain ⟨⟨news, newValue, -⟩, macroWeight, -, oldValue⟩ := values
    have lost := keeps.values 2 .newsWeight
    rw [show [first, second].take 2 = [first] ++ [second] from rfl, mergedConfig_append,
      expectedValue_append, macroWeight, oldValue, if_neg (by simp),
      show [first] = [] ++ [first] from rfl, expectedValue_append, if_pos news, newValue] at lost
    exact absurd (Option.some.inj lost) (by decide +kernel)
  · simp at values

end TradingControl.Cognitive
