import TradingControl.Python.Reference
import TradingControl.Strategy.ProposalApplier

/-!
# Proposals applied exactly once

A key goes on record before its proposal is applied.  So a proposal that could not be applied is
taken for an applied one when it is delivered again, and one that was applied is forgotten after a
thousand further keys.
-/

namespace TradingControl

open Python

/-! ## Deliveries that apply -/

/-- Calls to Redis of a handler that works on the control plane. -/
def redisCalls (settings : ApplierSettings) : ProposalType → Option ℕ
  | .signalWeightReduction => some 2
  | .agentSuspension => some 1
  | .agentRetirement => some (if settings.alpacaPaper then 4 else 2)
  | _ => none

/-- The handler of the type meets no obstacle. -/
def HandlerApplies (settings : ApplierSettings) (type : ProposalType)
    (delivery : ProposalDelivery) : Prop :=
  match redisCalls settings type with
  | some calls => (∃ entries, delivery.content = .dict entries) ∧
      ∀ call < calls, delivery.redisFails call = false
  | none => delivery.reply = .applied

/-- The delivery applies when it is not taken for a duplicate: its type is known, it is approved
where that is needed, and its handler meets no obstacle. -/
def ProposalDelivery.Applies (settings : ApplierSettings) (delivery : ProposalDelivery) : Prop :=
  ∃ text type, delivery.get "proposal_type" = .str text ∧ ProposalType.ofText text = some type ∧
    (type.gated = true → delivery.approved = true ∨
      settings.challengerPromotionAutoApply = true) ∧
    HandlerApplies settings type delivery

theorem applySignalWeightReduction_applied_iff (delivery : ProposalDelivery)
    (controls : Controls) :
    (applySignalWeightReduction delivery controls).1 = .applied ↔
      (∃ entries, delivery.content = .dict entries) ∧
        ∀ call < 2, delivery.redisFails call = false := by
  rw [Nat.forall_lt_succ_right, Nat.forall_lt_succ_right]
  rw [applySignalWeightReduction, reduceScale]
  cases first : delivery.redisFails 0 <;> cases second : delivery.redisFails 1 <;>
    cases delivery.content <;> simp

theorem applyAgentSuspension_applied_iff (runtime : Runtime) (delivery : ProposalDelivery)
    (controls : Controls) :
    (applyAgentSuspension runtime delivery controls).1 = .applied ↔
      (∃ entries, delivery.content = .dict entries) ∧
        ∀ call < 1, delivery.redisFails call = false := by
  rw [Nat.forall_lt_succ_right]
  rw [applyAgentSuspension]
  cases delivery.redisFails 0 <;> cases delivery.content <;> simp

theorem applyTradingPause_applied_iff (runtime : Runtime) (settings : ApplierSettings)
    (delivery : ProposalDelivery) (controls : Controls) :
    (applyTradingPause runtime settings delivery controls).1 = .applied ↔
      (∃ entries, delivery.content = .dict entries) ∧
        ∀ call < if settings.alpacaPaper then 4 else 2, delivery.redisFails call = false := by
  simp only [applyTradingPause, reduceScale]
  cases settings.alpacaPaper <;> simp only [Nat.forall_lt_succ_right, if_true, if_false,
    Bool.false_eq_true] <;> cases delivery.redisFails 0 <;> cases delivery.redisFails 1 <;>
    cases delivery.redisFails 2 <;> cases delivery.redisFails 3 <;>
    cases delivery.content <;> simp

theorem runHandler_applied_iff (runtime : Runtime) (settings : ApplierSettings)
    (type : ProposalType) (delivery : ProposalDelivery) (controls : Controls) :
    (runHandler runtime settings type delivery controls).1 = .applied ↔
      HandlerApplies settings type delivery := by
  cases type with
  | signalWeightReduction => exact applySignalWeightReduction_applied_iff delivery controls
  | agentSuspension => exact applyAgentSuspension_applied_iff runtime delivery controls
  | agentRetirement => exact applyTradingPause_applied_iff runtime settings delivery controls
  | _ => exact Iff.rfl

theorem dispatch_applied_iff (runtime : Runtime) (settings : ApplierSettings)
    (delivery : ProposalDelivery) (controls : Controls) :
    (dispatch runtime settings delivery controls).1 = .ran .applied ↔
      delivery.Applies settings := by
  rw [dispatch, ProposalDelivery.Applies]
  cases delivery.get "proposal_type" with
  | str text =>
      simp only [Value.str.injEq, exists_and_left, exists_eq_left']
      cases known : ProposalType.ofText text with
      | none => simp
      | some type =>
          simp only [Option.some.injEq, exists_eq_left']
          split_ifs with held
          · simp only [Bool.and_eq_true, Bool.not_eq_true'] at held
            simp [held]
          · rw [← runHandler_applied_iff runtime settings type delivery controls]
            have passes : type.gated = true → delivery.approved = true ∨
                settings.challengerPromotionAutoApply = true := by
              intro gated
              simp only [gated, Bool.true_and, Bool.and_eq_true, Bool.not_eq_true'] at held
              cases approved : delivery.approved with
              | true => exact Or.inl rfl
              | false => exact Or.inr (by simpa [approved] using held)
            simp only [ApplierOutcome.ran.injEq]
            exact ⟨fun applied => ⟨passes, applied⟩, fun both => both.2⟩
  | _ => simp

/-! ## Runs -/

section

variable (runtime : Runtime) (settings : ApplierSettings) (deliveries : List ProposalDelivery)

/-- The applier when the delivery at an index comes. -/
def applierAt (index : ℕ) : ProposalApplier :=
  processAll runtime settings (deliveries.take index)

def outcomeAt (index : ℕ) (delivery : ProposalDelivery) : ApplierOutcome :=
  (processProposal runtime settings (applierAt runtime settings deliveries index) delivery).1

/-- What is applied is not applied again, what raised is applied when it is delivered again and its
handler then applies, and the keys on record are those of the applied proposals. -/
structure AppliesExactlyOnce : Prop where
  once : ∀ first later one other, first < later → deliveries[first]? = some one →
    deliveries[later]? = some other → one.key runtime = other.key runtime →
    outcomeAt runtime settings deliveries first one = .ran .applied →
    outcomeAt runtime settings deliveries later other ≠ .ran .applied
  retried : ∀ first later one other, first < later → deliveries[first]? = some one →
    deliveries[later]? = some other → one.key runtime = other.key runtime →
    outcomeAt runtime settings deliveries first one = .ran .raised →
    (∀ index between, index < later → deliveries[index]? = some between →
      between.key runtime = one.key runtime →
      outcomeAt runtime settings deliveries index between ≠ .ran .applied) →
    other.Applies settings → outcomeAt runtime settings deliveries later other = .ran .applied
  recorded : ∀ count key, key ∈ (applierAt runtime settings deliveries count).appliedKeys ↔
    ∃ index delivery, index < count ∧ deliveries[index]? = some delivery ∧
      delivery.key runtime = key ∧
      outcomeAt runtime settings deliveries index delivery = .ran .applied

def FirstOfKey (index : ℕ) (delivery : ProposalDelivery) : Prop :=
  deliveries[index]? = some delivery ∧
    ∀ earlier ∈ deliveries.take index, earlier.key runtime ≠ delivery.key runtime

variable {runtime settings deliveries}

theorem appliedKeys_processAll (deliveries : List ProposalDelivery) :
    (processAll runtime settings deliveries).appliedKeys =
      SeenLog.seenAfter appliedKeysCap (deliveries.map (·.key runtime)) := by
  induction deliveries using List.reverseRecOn with
  | nil => rfl
  | append_singleton deliveries delivery induction =>
      rw [List.map_append, List.map_singleton, SeenLog.seenAfter_append, ← induction]
      simp only [processAll]
      rw [List.foldl_append, List.foldl_cons, List.foldl_nil]
      generalize deliveries.foldl _ _ = applier
      simp only [processProposal]
      by_cases known : delivery.key runtime ∈ applier.appliedKeys
      · rw [if_pos known, SeenLog.record, if_pos known]
      · rw [if_neg known]

theorem outcomeAt_eq (index : ℕ) (delivery : ProposalDelivery) :
    outcomeAt runtime settings deliveries index delivery =
      if delivery.key runtime ∈ (applierAt runtime settings deliveries index).appliedKeys then
        .duplicate
      else (dispatch runtime settings delivery
        (applierAt runtime settings deliveries index).controls).1 := by
  rw [outcomeAt, processProposal]
  dsimp only
  split_ifs <;> rfl

theorem mem_take_of_getElem? {index count : ℕ} {delivery : ProposalDelivery}
    (found : deliveries[index]? = some delivery) (before : index < count) :
    delivery ∈ deliveries.take count := by
  rw [← List.getElem?_take_of_lt before] at found
  exact List.mem_of_getElem? found

theorem exists_index_of_mem_take {count : ℕ} {delivery : ProposalDelivery}
    (member : delivery ∈ deliveries.take count) :
    ∃ index < count, deliveries[index]? = some delivery := by
  obtain ⟨index, held⟩ := List.getElem?_of_mem member
  have within : index < count := by
    have bound := (List.getElem?_eq_some_iff.mp held).1
    rw [List.length_take] at bound
    omega
  rw [List.getElem?_take_of_lt within] at held
  exact ⟨index, within, held⟩

theorem exists_firstOfKey (runtime : Runtime) {index : ℕ} {delivery : ProposalDelivery}
    (found : deliveries[index]? = some delivery) :
    ∃ first one, first ≤ index ∧ FirstOfKey runtime deliveries first one ∧
      one.key runtime = delivery.key runtime := by
  induction index using Nat.strong_induction_on generalizing delivery with
  | _ index induction =>
      by_cases fresh : ∀ earlier ∈ deliveries.take index,
          earlier.key runtime ≠ delivery.key runtime
      · exact ⟨index, delivery, le_refl index, ⟨found, fresh⟩, rfl⟩
      · push Not at fresh
        obtain ⟨earlier, member, same⟩ := fresh
        obtain ⟨before, within, held⟩ := exists_index_of_mem_take member
        obtain ⟨first, one, le, isFirst, key⟩ := induction before within held
        exact ⟨first, one, by omega, isFirst, key.trans same⟩

theorem mem_appliedKeys {index : ℕ} {key : String}
    (known : key ∈ (applierAt runtime settings deliveries index).appliedKeys) :
    ∃ earlier ∈ deliveries.take index, earlier.key runtime = key := by
  rw [applierAt, appliedKeys_processAll] at known
  exact List.mem_map.mp (SeenLog.mem_of_mem_seenAfter known)

/-- A delivery that applies comes to be applied unless its key is on record. -/
theorem outcomeAt_applied_iff (index : ℕ) (delivery : ProposalDelivery) :
    outcomeAt runtime settings deliveries index delivery = .ran .applied ↔
      delivery.key runtime ∉ (applierAt runtime settings deliveries index).appliedKeys ∧
        delivery.Applies settings := by
  rw [outcomeAt_eq]
  split_ifs with known
  · simp [known]
  · rw [dispatch_applied_iff]
    exact ⟨fun applies => ⟨known, applies⟩, fun both => both.2⟩

theorem key_mem_appliedKeys {index : ℕ} {delivery : ProposalDelivery}
    (found : deliveries[index]? = some delivery) :
    delivery.key runtime ∈ (applierAt runtime settings deliveries (index + 1)).appliedKeys := by
  rw [applierAt, appliedKeys_processAll, List.take_add_one, found, Option.toList_some,
    List.map_append, List.map_singleton, SeenLog.seenAfter_append]
  exact SeenLog.mem_record (by decide) _ _

/-- With few keys, those on record are those delivered. -/
theorem appliedKeys_of_few (settings : ApplierSettings)
    (few : (deliveries.map (·.key runtime)).dedup.length ≤ appliedKeysCap) (index : ℕ)
    (key : String) :
    key ∈ (applierAt runtime settings deliveries index).appliedKeys ↔
      ∃ earlier ∈ deliveries.take index, earlier.key runtime = key := by
  have contained : (deliveries.take index).map (·.key runtime) ⊆
      deliveries.map (·.key runtime) :=
    List.map_subset _ (List.take_subset index deliveries)
  have fewer := Nat.le_trans (SeenLog.length_dedup_le contained) few
  rw [applierAt, appliedKeys_processAll, (SeenLog.seenAfter_of_few fewer).2, List.mem_map]

theorem FirstOfKey.fresh {index : ℕ} {delivery : ProposalDelivery}
    (isFirst : FirstOfKey runtime deliveries index delivery) :
    delivery.key runtime ∉ (applierAt runtime settings deliveries index).appliedKeys := by
  intro known
  obtain ⟨earlier, member, same⟩ := mem_appliedKeys known
  exact isFirst.2 earlier member same

/-- A record of exactly the applied keys takes a first delivery that applies. -/
theorem AppliesExactlyOnce.applies_of_first
    (exactly : AppliesExactlyOnce runtime settings deliveries) {index : ℕ}
    {delivery : ProposalDelivery} (isFirst : FirstOfKey runtime deliveries index delivery) :
    delivery.Applies settings := by
  obtain ⟨other, held, before, found, same, applied⟩ :=
    (exactly.recorded (index + 1) _).mp (key_mem_appliedKeys isFirst.1)
  have here : other = index := by
    by_contra apart
    exact isFirst.2 held (mem_take_of_getElem? found (by omega)) same
  subst here
  obtain rfl := Option.some.inj (isFirst.1.symm.trans found)
  exact ((outcomeAt_applied_iff other delivery).mp applied).2

/-- Such a record never forgets a key. -/
theorem AppliesExactlyOnce.few (exactly : AppliesExactlyOnce runtime settings deliveries) :
    (deliveries.map (·.key runtime)).dedup.length ≤ appliedKeysCap := by
  refine SeenLog.few_of_seen fun key member => ?_
  obtain ⟨delivery, held, rfl⟩ := List.mem_map.mp member
  obtain ⟨index, found⟩ := List.getElem?_of_mem held
  obtain ⟨first, one, le, isFirst, same⟩ := exists_firstOfKey runtime found
  have applied : outcomeAt runtime settings deliveries first one = .ran .applied :=
    (outcomeAt_applied_iff first one).mpr ⟨isFirst.fresh, exactly.applies_of_first isFirst⟩
  have bound := (List.getElem?_eq_some_iff.mp isFirst.1).1
  have known := (exactly.recorded deliveries.length (delivery.key runtime)).mpr
    ⟨first, one, bound, isFirst.1, same, applied⟩
  rwa [applierAt, List.take_length, appliedKeys_processAll] at known

theorem appliesExactlyOnce_of_firsts
    (few : (deliveries.map (·.key runtime)).dedup.length ≤ appliedKeysCap)
    (firsts : ∀ index delivery, FirstOfKey runtime deliveries index delivery →
      delivery.Applies settings) :
    AppliesExactlyOnce runtime settings deliveries where
  once first later one other before found held same _ applied := by
    have known := (appliedKeys_of_few settings few later (other.key runtime)).mpr
      ⟨one, mem_take_of_getElem? found before, same⟩
    exact ((outcomeAt_applied_iff later other).mp applied).1 known
  retried first later one other _ found _ _ raised _ _ := by
    -- no delivery raises: a key off the record comes first, and then it applies
    exfalso
    by_cases known : one.key runtime ∈ (applierAt runtime settings deliveries first).appliedKeys
    · rw [outcomeAt_eq, if_pos known] at raised
      cases raised
    · have isFirst : FirstOfKey runtime deliveries first one :=
        ⟨found, fun earlier member same =>
          known ((appliedKeys_of_few settings few first _).mpr ⟨earlier, member, same⟩)⟩
      rw [(outcomeAt_applied_iff first one).mpr ⟨known, firsts first one isFirst⟩] at raised
      cases raised
  recorded count key := by
    rw [appliedKeys_of_few settings few]
    constructor
    · rintro ⟨delivery, member, rfl⟩
      obtain ⟨index, within, found⟩ := exists_index_of_mem_take member
      obtain ⟨first, one, le, isFirst, same⟩ := exists_firstOfKey runtime found
      exact ⟨first, one, by omega, isFirst.1, same,
        (outcomeAt_applied_iff first one).mpr ⟨isFirst.fresh, firsts first one isFirst⟩⟩
    · rintro ⟨index, delivery, before, found, same, _⟩
      exact ⟨delivery, mem_take_of_getElem? found before, same⟩

end

/-- Proposals are applied exactly once in exactly the runs with no more keys than the applier
remembers in which the first delivery of every key applies. -/
theorem appliesExactlyOnce_iff (runtime : Runtime) (settings : ApplierSettings)
    (deliveries : List ProposalDelivery) :
    AppliesExactlyOnce runtime settings deliveries ↔
      (deliveries.map (·.key runtime)).dedup.length ≤ appliedKeysCap ∧
        ∀ index delivery, FirstOfKey runtime deliveries index delivery →
          delivery.Applies settings :=
  ⟨fun exactly => ⟨exactly.few, fun _ _ isFirst => exactly.applies_of_first isFirst⟩,
    fun ⟨few, firsts⟩ => appliesExactlyOnce_of_firsts few firsts⟩

/-- The message of a proposal to reduce the weight of the signals. -/
def reductionMessage : Dict String Value :=
  [("msg_id", .str "proposal-1"), ("proposal_type", .str "signal_weight_reduction"),
    ("content", .dict [("reason", .str "losing streak")])]

/-- The message twice; Redis is away when it comes first. -/
def reductionTwice : List ProposalDelivery :=
  [{ data := reductionMessage, redisFails := fun call => call = 0 }, { data := reductionMessage }]

/-- The second delivery would apply and is taken for a duplicate of the first, which raised. -/
theorem retriedReduction_dropped :
    ¬ AppliesExactlyOnce Reference.runtime {} reductionTwice := by
  intro exactly
  have raised : outcomeAt Reference.runtime {} reductionTwice 0
      { data := reductionMessage, redisFails := fun call => call = 0 } = .ran .raised := by
    decide +kernel
  have duplicate : outcomeAt Reference.runtime {} reductionTwice 1 { data := reductionMessage } =
      .duplicate := by
    decide +kernel
  have applies : ProposalDelivery.Applies {} { data := reductionMessage } :=
    ⟨"signal_weight_reduction", .signalWeightReduction, rfl, rfl, by simp [ProposalType.gated],
      ⟨_, rfl⟩, fun _ _ => rfl⟩
  have applied := exactly.retried 0 1 _ _ (by decide) rfl rfl rfl raised ?_ applies
  · rw [duplicate] at applied
    cases applied
  · rintro index between before found - ran
    obtain rfl : index = 0 := by omega
    obtain rfl := Option.some.inj found
    rw [raised] at ran
    cases ran

end TradingControl
