import TradingControl.Cognitive.Gitops

/-!
# Configurations under evolution

A valid dictionary holds a number within bounds for every value of a configuration.  An applied
proposal changes one of them and the version, and what it leaves is valid again.
-/

namespace TradingControl.Cognitive

open Python

/-! ## Values of a configuration -/

/-- The values of a configuration besides its version. -/
inductive ConfigField where
  | newsWeight
  | techWeight
  | macroWeight
  | buyThreshold
  | sellThreshold
  | maxPositionSizePct
  | maxDailyLossPct
  | maxExposurePct
deriving DecidableEq

namespace ConfigField

def all : List ConfigField :=
  [.newsWeight, .techWeight, .macroWeight, .buyThreshold, .sellThreshold, .maxPositionSizePct,
    .maxDailyLossPct, .maxExposurePct]

/-- Where the nested dictionary keeps the value. -/
def path : ConfigField → Option String × String
  | .newsWeight => (some "weights", "news")
  | .techWeight => (some "weights", "tech")
  | .macroWeight => (some "weights", "macro")
  | .buyThreshold => (none, "buy_threshold")
  | .sellThreshold => (none, "sell_threshold")
  | .maxPositionSizePct => (some "risk", "max_position_size_pct")
  | .maxDailyLossPct => (some "risk", "max_daily_loss_pct")
  | .maxExposurePct => (some "risk", "max_exposure_pct")

def bounds : ConfigField → Bounds
  | .newsWeight | .techWeight | .macroWeight => weightBounds
  | .buyThreshold => buyThresholdBounds
  | .sellThreshold => sellThresholdBounds
  | .maxPositionSizePct => maxPositionSizeBounds
  | .maxDailyLossPct => maxDailyLossBounds
  | .maxExposurePct => maxExposureBounds

theorem path_injective {first second : ConfigField} (same : first.path = second.path) :
    first = second := by
  cases first <;> cases second <;> first | rfl | simp [path] at same

def ofPath (group key : String) : Option ConfigField :=
  all.find? fun field => field.path = (some group, key)

theorem path_of_ofPath {group key : String} {field : ConfigField}
    (found : ofPath group key = some field) : field.path = (some group, key) := by
  simpa using List.find?_some found

end ConfigField

namespace CognitiveConfig

def valueOf (config : CognitiveConfig) : ConfigField → Option ℚ
  | .newsWeight => config.weights.lookup "news"
  | .techWeight => config.weights.lookup "tech"
  | .macroWeight => config.weights.lookup "macro"
  | .buyThreshold => some config.buyThreshold
  | .sellThreshold => some config.sellThreshold
  | .maxPositionSizePct => some config.maxPositionSizePct
  | .maxDailyLossPct => some config.maxDailyLossPct
  | .maxExposurePct => some config.maxExposurePct

def ofValues (version : ℤ) (values : ConfigField → ℚ) : CognitiveConfig where
  version := version
  weights := [("news", values .newsWeight), ("tech", values .techWeight),
    ("macro", values .macroWeight)]
  buyThreshold := values .buyThreshold
  sellThreshold := values .sellThreshold
  maxPositionSizePct := values .maxPositionSizePct
  maxDailyLossPct := values .maxDailyLossPct
  maxExposurePct := values .maxExposurePct

@[simp] theorem valueOf_ofValues (version : ℤ) (values : ConfigField → ℚ) (field : ConfigField) :
    (ofValues version values).valueOf field = some (values field) := by
  cases field <;> rfl

end CognitiveConfig

/-- The entry of a nested dictionary. -/
def entryOf (data : Payload) (field : ConfigField) : Option Value :=
  match field.path with
  | (none, key) => data.lookup key
  | (some group, key) =>
      match data.lookup group with
      | some (.dict entries) => entries.lookup key
      | _ => none

/-! ## Valid dictionaries -/

/-- The entry is a number other than a truth value. -/
def IsNumber (runtime : Runtime) (entry : Option Value) (x : ℚ) : Prop :=
  ∃ value, entry = some value ∧ (∀ truth, value ≠ .bool truth) ∧ runtime.toFloat value = .ok x

/-- The dictionary holds these values, all within their bounds and with a band between the
thresholds. -/
structure Describes (runtime : Runtime) (data : Payload) (values : ConfigField → ℚ) : Prop where
  entries : ∀ field, IsNumber runtime (entryOf data field) (values field)
  low : ∀ field, field.bounds.low ≤ values field
  high : ∀ field, values field ≤ field.bounds.high
  band : values .sellThreshold < values .buyThreshold

theorem numberWithin_iff (runtime : Runtime) (bounds : Bounds) (value : Value)
    (other : ∀ truth, value ≠ .bool truth) :
    numberWithin runtime bounds value = .ok true ↔
      ∃ x, IsNumber runtime (some value) x ∧ bounds.low ≤ x ∧ x ≤ bounds.high := by
  rw [numberWithin]
  cases read : runtime.toFloat value with
  | error error => cases error <;> simp [IsNumber, read]
  | ok numeric =>
      constructor
      · intro within
        simp only [Except.ok.injEq, decide_eq_true_eq] at within
        exact ⟨numeric, ⟨value, rfl, other, read⟩, within⟩
      · rintro ⟨x, ⟨found, same, -, number⟩, within⟩
        obtain rfl := Option.some.inj same
        rw [read] at number
        obtain rfl := Except.ok.inj number
        simpa using within

theorem inBounds_iff (runtime : Runtime) (entry : Option Value) (bounds : Bounds) :
    inBounds runtime entry bounds = .ok true ↔
      ∃ x, IsNumber runtime entry x ∧ bounds.low ≤ x ∧ x ≤ bounds.high := by
  match entry with
  | none => simp [inBounds, IsNumber]
  | some .none => simp [inBounds, IsNumber, Runtime.toFloat]
  | some (.bool truth) => simp [inBounds, IsNumber]
  | some (.int value) => exact numberWithin_iff runtime bounds (.int value) (by simp)
  | some (.float value) => exact numberWithin_iff runtime bounds (.float value) (by simp)
  | some (.nonFinite value) => exact numberWithin_iff runtime bounds (.nonFinite value) (by simp)
  | some (.str value) => exact numberWithin_iff runtime bounds (.str value) (by simp)
  | some (.list items) => exact numberWithin_iff runtime bounds (.list items) (by simp)
  | some (.dict entries) => exact numberWithin_iff runtime bounds (.dict entries) (by simp)

theorem checks_nil_iff {check : Except Raised Bool} {later : Except Raised (List String)}
    {own : Bool → List String} (empty : ∀ within, own within = [] ↔ within = true) :
    (do
      let within ← check
      return own within ++ (← later)) = .ok [] ↔ check = .ok true ∧ later = .ok [] := by
  cases check with
  | error raised => simp [bind, Except.bind]
  | ok within =>
      cases later with
      | error raised => simp [bind, Except.bind]
      | ok errors => simp [bind, Except.bind, pure, Except.pure, empty]

theorem weightErrors_cons (runtime : Runtime) (weights : Payload) (key : String)
    (rest : List String) :
    ∃ own : Bool → List String, (∀ within, own within = [] ↔ within = true) ∧
      weightErrors runtime weights (key :: rest) = do
        let within ← inBounds runtime (weights.lookup key) weightBounds
        return own within ++ (← weightErrors runtime weights rest) := by
  rw [weightErrors]
  cases weights.lookup key with
  | none =>
      refine ⟨fun within => if within then [] else ["weights." ++ key ++ " is missing"],
        by simp, ?_⟩
      simp [inBounds, bind, Except.bind]
  | some value =>
      refine ⟨fun within => if within then [] else ["weights." ++ key ++ "=" ++
        runtime.repr value ++ " outside " ++ weightBounds.text], by simp, ?_⟩
      rcases check : inBounds runtime (some value) weightBounds with raised | within
      · simp [check, bind, Except.bind]
      · cases within <;> simp [check, bind, Except.bind]

theorem riskErrors_cons (runtime : Runtime) (risk : Payload) (limit : String × Bounds)
    (rest : List (String × Bounds)) :
    ∃ own : Bool → List String, (∀ within, own within = [] ↔ within = true) ∧
      riskErrors runtime risk (limit :: rest) = do
        let within ← inBounds runtime (risk.lookup limit.1) limit.2
        return own within ++ (← riskErrors runtime risk rest) := by
  refine ⟨fun within => if within then [] else ["risk." ++ limit.1 ++ "=" ++
    reprField runtime risk limit.1 ++ " outside " ++ limit.2.text], by simp, ?_⟩
  rw [riskErrors]

theorem weightErrors_iff (runtime : Runtime) (weights : Payload) (keys : List String) :
    weightErrors runtime weights keys = .ok [] ↔
      ∀ key ∈ keys, inBounds runtime (weights.lookup key) weightBounds = .ok true := by
  induction keys with
  | nil => simp [weightErrors]
  | cons key rest induction =>
      obtain ⟨own, empty, isCons⟩ := weightErrors_cons runtime weights key rest
      rw [isCons, checks_nil_iff empty, List.forall_mem_cons, induction]

theorem riskErrors_iff (runtime : Runtime) (risk : Payload) (limits : List (String × Bounds)) :
    riskErrors runtime risk limits = .ok [] ↔
      ∀ limit ∈ limits, inBounds runtime (risk.lookup limit.1) limit.2 = .ok true := by
  induction limits with
  | nil => simp [riskErrors]
  | cons limit rest induction =>
      obtain ⟨own, empty, isCons⟩ := riskErrors_cons runtime risk limit rest
      rw [isCons, checks_nil_iff empty, List.forall_mem_cons, induction]

theorem thresholdErrors_iff (runtime : Runtime) (data : Payload) (key : String) (bounds : Bounds) :
    thresholdErrors runtime data key bounds = .ok [] ↔
      inBounds runtime (data.lookup key) bounds = .ok true := by
  rw [thresholdErrors]
  rcases inBounds runtime (data.lookup key) bounds with error | within
  · simp [bind, Except.bind]
  · cases within <;> simp [bind, Except.bind, pure, Except.pure]

/-- The check across the thresholds, where both are within bounds. -/
theorem crossErrors_iff (runtime : Runtime) (data : Payload) {buy sell : ℚ}
    (buyWithin : inBounds runtime (data.lookup "buy_threshold") buyThresholdBounds = .ok true)
    (sellWithin : inBounds runtime (data.lookup "sell_threshold") sellThresholdBounds = .ok true)
    (buyReads : IsNumber runtime (data.lookup "buy_threshold") buy)
    (sellReads : IsNumber runtime (data.lookup "sell_threshold") sell) :
    crossErrors runtime data = .ok [] ↔ sell < buy := by
  obtain ⟨buyValue, buyFound, -, buyNumber⟩ := buyReads
  obtain ⟨sellValue, sellFound, -, sellNumber⟩ := sellReads
  rw [crossErrors]
  rw [buyWithin, sellWithin, buyFound, sellFound]
  simp [bind, Except.bind, pure, Except.pure, buyNumber, sellNumber]

theorem weightsErrors_iff (runtime : Runtime) (data : Payload) :
    weightsErrors runtime data = .ok [] ↔
      ∀ field ∈ [ConfigField.newsWeight, .techWeight, .macroWeight],
        inBounds runtime (entryOf data field) field.bounds = .ok true := by
  simp only [weightsErrors, entryOf, List.forall_mem_cons, ConfigField.path, ConfigField.bounds]
  cases data.lookup "weights" with
  | none => simp [inBounds]
  | some value =>
      cases value with
      | dict weights => simp [weightErrors_iff, weightKeys]
      | _ => simp [inBounds]

theorem riskObjectErrors_iff (runtime : Runtime) (data : Payload) :
    riskObjectErrors runtime data = .ok [] ↔
      ∀ field ∈ [ConfigField.maxPositionSizePct, .maxDailyLossPct, .maxExposurePct],
        inBounds runtime (entryOf data field) field.bounds = .ok true := by
  simp only [riskObjectErrors, entryOf, List.forall_mem_cons, ConfigField.path, ConfigField.bounds]
  cases data.lookup "risk" with
  | none => simp [inBounds]
  | some value =>
      cases value with
      | dict risk => simp [riskErrors_iff, riskLimits]
      | _ => simp [inBounds]

/-- A dictionary validates exactly where every check of it passes. -/
theorem validateConfigDict_nil_iff (runtime : Runtime) (data : Payload) :
    validateConfigDict runtime (.dict data) = .ok [] ↔
      weightsErrors runtime data = .ok [] ∧
      thresholdErrors runtime data "buy_threshold" buyThresholdBounds = .ok [] ∧
      thresholdErrors runtime data "sell_threshold" sellThresholdBounds = .ok [] ∧
      crossErrors runtime data = .ok [] ∧ riskObjectErrors runtime data = .ok [] := by
  simp only [validateConfigDict, bind_eq_ok]
  constructor
  · rintro ⟨weights, first, buy, second, sell, third, cross, fourth, risk, fifth, none⟩
    have empty : weights ++ buy ++ sell ++ cross ++ risk = [] := Except.ok.inj none
    simp only [List.append_eq_nil_iff] at empty
    obtain ⟨⟨⟨⟨rfl, rfl⟩, rfl⟩, rfl⟩, rfl⟩ := empty
    exact ⟨first, second, third, fourth, fifth⟩
  · rintro ⟨first, second, third, fourth, fifth⟩
    exact ⟨[], first, [], second, [], third, [], fourth, [], fifth, rfl⟩

theorem validateConfigDict_iff (runtime : Runtime) (data : Payload) :
    validateConfigDict runtime (.dict data) = .ok [] ↔ ∃ values, Describes runtime data values := by
  rw [validateConfigDict_nil_iff, weightsErrors_iff, thresholdErrors_iff, thresholdErrors_iff,
    riskObjectErrors_iff]
  constructor
  · rintro ⟨weights, buy, sell, cross, risk⟩
    have all : ∀ field : ConfigField, ∃ x, IsNumber runtime (entryOf data field) x ∧
        field.bounds.low ≤ x ∧ x ≤ field.bounds.high := by
      intro field
      rw [← inBounds_iff]
      cases field with
      | buyThreshold => exact buy
      | sellThreshold => exact sell
      | newsWeight => exact weights _ (by simp)
      | techWeight => exact weights _ (by simp)
      | macroWeight => exact weights _ (by simp)
      | maxPositionSizePct => exact risk _ (by simp)
      | maxDailyLossPct => exact risk _ (by simp)
      | maxExposurePct => exact risk _ (by simp)
    choose values holds using all
    exact ⟨values, fun field => (holds field).1, fun field => (holds field).2.1,
      fun field => (holds field).2.2,
      (crossErrors_iff runtime data buy sell (holds .buyThreshold).1 (holds .sellThreshold).1).mp
        cross⟩
  · rintro ⟨values, entries, low, high, band⟩
    have all : ∀ field, inBounds runtime (entryOf data field) field.bounds = .ok true :=
      fun field => (inBounds_iff runtime _ _).mpr
        ⟨values field, entries field, low field, high field⟩
    exact ⟨fun field _ => all field, all .buyThreshold, all .sellThreshold,
      (crossErrors_iff runtime data (all .buyThreshold) (all .sellThreshold)
        (entries .buyThreshold) (entries .sellThreshold)).mpr band, fun field _ => all field⟩

/-! ## Reading -/

theorem group_of_number {runtime : Runtime} {data : Payload} {field : ConfigField}
    {group key : String} {x : ℚ} (nested : field.path = (some group, key))
    (number : IsNumber runtime (entryOf data field) x) :
    ∃ entries, data.lookup group = some (.dict entries) ∧
      IsNumber runtime (entries.lookup key) x := by
  rw [entryOf] at number
  rw [nested] at number
  dsimp only at number
  split at number
  · next entries found => exact ⟨entries, found, number⟩
  · obtain ⟨value, absent, -⟩ := number
    cases absent

theorem floatField_of_number {runtime : Runtime} {data : Payload} {key : String} {x : ℚ}
    (default : ℚ) (number : IsNumber runtime (data.lookup key) x) :
    floatField runtime data key default = .ok x := by
  obtain ⟨value, found, -, read⟩ := number
  rw [floatField, found]
  exact read

theorem fromDict_of_describes (runtime : Runtime) {data : Payload} {values : ConfigField → ℚ}
    (describes : Describes runtime data values) {version : ℤ}
    (read : versionOf runtime data = .ok version) :
    CognitiveConfig.fromDict runtime data = .ok (.ofValues version values) := by
  have entries := describes.entries
  obtain ⟨weights, weightsFound, news⟩ := group_of_number rfl (entries .newsWeight)
  obtain ⟨_, again, tech⟩ := group_of_number rfl (entries .techWeight)
  obtain ⟨_, last, macroWeight⟩ := group_of_number rfl (entries .macroWeight)
  obtain rfl := Value.dict.inj (Option.some.inj (weightsFound.symm.trans again))
  obtain rfl := Value.dict.inj (Option.some.inj (weightsFound.symm.trans last))
  obtain ⟨risk, riskFound, position⟩ := group_of_number rfl (entries .maxPositionSizePct)
  obtain ⟨_, again, loss⟩ := group_of_number rfl (entries .maxDailyLossPct)
  obtain ⟨_, last, exposure⟩ := group_of_number rfl (entries .maxExposurePct)
  obtain rfl := Value.dict.inj (Option.some.inj (riskFound.symm.trans again))
  obtain rfl := Value.dict.inj (Option.some.inj (riskFound.symm.trans last))
  have weightsRead : subDict data "weights" = .ok weights := by rw [subDict, weightsFound]
  have riskRead : subDict data "risk" = .ok risk := by rw [subDict, riskFound]
  rw [CognitiveConfig.fromDict]
  rw [weightsRead, riskRead, read]
  simp only [bind, Except.bind, floatField_of_number _ news, floatField_of_number _ tech,
    floatField_of_number _ macroWeight, floatField_of_number _ position,
    floatField_of_number _ loss, floatField_of_number _ exposure,
    floatField_of_number _ (entries .buyThreshold), floatField_of_number _ (entries .sellThreshold)]
  rfl

/-! ## Applied proposals -/

def Proposal.field (proposal : Proposal) : Option ConfigField :=
  let key := lastSegment proposal.target
  if proposal.proposalType = "weight_change" then ConfigField.ofPath "weights" key
  else if proposal.proposalType = "risk_change" then ConfigField.ofPath "risk" key
  else none

def Proposal.setValue (runtime : Runtime) (proposal : Proposal) : Except Raised ℚ :=
  if proposal.proposalType = "weight_change" then clampedWeight runtime proposal.newValue
  else runtime.toFloat proposal.newValue

/-- Values within their bounds and with a band between the thresholds. -/
structure Safe (values : ConfigField → ℚ) : Prop where
  low : ∀ field, field.bounds.low ≤ values field
  high : ∀ field, values field ≤ field.bounds.high
  band : values .sellThreshold < values .buyThreshold

theorem lookup_weightsDict (config : CognitiveConfig) (key : String) :
    config.weightsDict.lookup key = (config.weights.lookup key).map .float := by
  rw [CognitiveConfig.weightsDict]
  induction config.weights with
  | nil => rfl
  | cons item rest induction =>
      obtain ⟨held, weight⟩ := item
      by_cases same : key = held
      · simp [same]
      · simp [List.lookup_cons, beq_false_of_ne same, induction]

theorem entryOf_toDict (config : CognitiveConfig) (field : ConfigField) :
    entryOf config.toDict field = (config.valueOf field).map .float := by
  cases field <;>
    simp [entryOf, ConfigField.path, CognitiveConfig.toDict, CognitiveConfig.riskDict,
      CognitiveConfig.valueOf, List.lookup_cons, lookup_weightsDict]

theorem entryOf_set_version (version : ℤ) (data : Payload) (field : ConfigField) :
    entryOf (Dict.set "version" (.int version) data) field = entryOf data field := by
  cases field <;> simp [entryOf, ConfigField.path, Dict.lookup_set]

/-- Setting a key of a group changes the entry there alone. -/
theorem entryOf_set {data inner : Payload} {group : String} (key : String) (value : Value)
    (held : data.lookup group = some (.dict inner))
    (nested : ∀ field : ConfigField, field.path ≠ (none, group)) (field : ConfigField) :
    entryOf (Dict.set group (.dict (Dict.set key value inner)) data) field =
      if field.path = (some group, key) then some value else entryOf data field := by
  have outer := nested field
  simp only [entryOf]
  rcases path : field.path with ⟨_ | other, name⟩
  · have apart : name ≠ group := fun same => outer (by rw [path, same])
    simp [Dict.lookup_set, apart]
  · by_cases same : other = group
    · subst same
      by_cases found : name = key
      · simp [Dict.lookup_set, found]
      · simp [Dict.lookup_set, found, held]
    · simp [Dict.lookup_set, same]

/-- The dictionary is that of the configuration with one entry set by the proposal. -/
structure Changed (runtime : Runtime) (config : CognitiveConfig) (proposal : Proposal)
    (data : Payload) (target : ConfigField) : Prop where
  field : proposal.field = some target
  value : ∀ x, IsNumber runtime (entryOf data target) x → proposal.setValue runtime = .ok x
  others : ∀ other, other ≠ target → entryOf data other = (config.valueOf other).map .float

theorem changed_of_group {runtime : Runtime} {config : CognitiveConfig} {proposal : Proposal}
    {inner : Payload} {group key : String} {value : Value} {target : ConfigField}
    (held : config.toDict.lookup group = some (.dict inner))
    (nested : ∀ field : ConfigField, field.path ≠ (none, group))
    (found : ConfigField.ofPath group key = some target) (field : proposal.field = some target)
    (sets : ∀ x, IsNumber runtime (some value) x → proposal.setValue runtime = .ok x) :
    Changed runtime config proposal
      (Dict.set group (.dict (Dict.set key value inner)) config.toDict) target := by
  have path := ConfigField.path_of_ofPath found
  refine ⟨field, fun x number => sets x ?_, fun other apart => ?_⟩
  · rwa [entryOf_set key value held nested, if_pos path] at number
  · rw [entryOf_set key value held nested, if_neg, entryOf_toDict]
    intro same
    exact apart (ConfigField.path_injective (same.trans path.symm))

theorem toFloat_of_floatValue {runtime : Runtime} {value floated : Value} {x : ℚ}
    (converted : runtime.floatValue value = .ok floated) (read : runtime.toFloat floated = .ok x) :
    runtime.toFloat value = .ok x := by
  have finite : ∀ value, (runtime.toFloat value).map Value.float = .ok floated →
      runtime.toFloat value = .ok x := by
    intro value mapped
    cases number : runtime.toFloat value with
    | error error => simp [number, Except.map] at mapped
    | ok y =>
        simp only [number, Except.map, Except.ok.injEq] at mapped
        subst mapped
        exact read
  cases value with
  | nonFinite value =>
      obtain rfl := Except.ok.inj converted
      exact read
  | none => exact finite _ converted
  | bool value => exact finite _ converted
  | int value => exact finite _ converted
  | float value => exact finite _ converted
  | str value => exact finite _ converted
  | list items => exact finite _ converted
  | dict entries => exact finite _ converted

theorem changed_of_changedDict {runtime : Runtime} {config : CognitiveConfig}
    {proposal : Proposal} {data : Payload}
    (applied : changedDict runtime config proposal = .ok (some data)) :
    ∃ target, Changed runtime config proposal data target := by
  unfold changedDict at applied
  dsimp only at applied
  split_ifs at applied with weight known risk listed
  · obtain ⟨target, found⟩ : ∃ target, ConfigField.ofPath "weights" (lastSegment proposal.target) =
        some target := by
      simp only [weightKeys, List.mem_cons, List.not_mem_nil, or_false] at known
      rcases known with same | same | same <;> rw [same] <;> exact ⟨_, rfl⟩
    cases clamped : clampedWeight runtime proposal.newValue with
    | error error => simp [clamped, Except.map] at applied
    | ok value =>
        simp only [clamped, Except.map, Except.ok.injEq, Option.some.injEq] at applied
        subst applied
        refine ⟨target, changed_of_group rfl ?_ found ?_ ?_⟩
        · intro field
          cases field <;> simp [ConfigField.path]
        · rw [Proposal.field, if_pos weight, found]
        · rintro x ⟨_, same, -, read⟩
          obtain rfl := Option.some.inj same
          rw [Proposal.setValue, if_pos weight, clamped]
          exact read
  · cases applied
  · obtain ⟨target, found⟩ : ∃ target, ConfigField.ofPath "risk" (lastSegment proposal.target) =
        some target := by
      simp only [Dict.keys, CognitiveConfig.riskDict, List.map_cons, List.map_nil, List.mem_cons,
        List.not_mem_nil, or_false] at listed
      rcases listed with same | same | same <;> rw [same] <;> exact ⟨_, rfl⟩
    cases floated : runtime.floatValue proposal.newValue with
    | error error => simp [floated, Except.map] at applied
    | ok value =>
        simp only [floated, Except.map, Except.ok.injEq, Option.some.injEq] at applied
        subst applied
        refine ⟨target, changed_of_group rfl ?_ found ?_ ?_⟩
        · intro field
          cases field <;> simp [ConfigField.path]
        · rw [Proposal.field, if_neg weight, if_pos risk, found]
        · rintro x ⟨_, same, -, read⟩
          obtain rfl := Option.some.inj same
          rw [Proposal.setValue, if_neg weight]
          exact toFloat_of_floatValue floated read
  · cases applied
  · cases applied

theorem applied_spec {runtime : Runtime} {config updated : CognitiveConfig} {proposal : Proposal}
    (applied : applyProposalToConfig runtime config proposal = .ok (some updated)) :
    ∃ target values, proposal.field = some target ∧
      updated = .ofValues (config.version + 1) values ∧ Safe values ∧
      proposal.setValue runtime = .ok (values target) ∧
      ∀ other, other ≠ target → config.valueOf other = some (values other) := by
  rw [applyProposalToConfig] at applied
  obtain ⟨changed, change, applied⟩ := bind_eq_ok.mp applied
  cases changed with
  | none => cases applied
  | some data =>
      obtain ⟨target, field, value, others⟩ := changed_of_changedDict change
      obtain ⟨errors, validated, applied⟩ := bind_eq_ok.mp applied
      split_ifs at applied with valid
      · obtain ⟨read, found, same⟩ := bind_eq_ok.mp applied
        obtain rfl := Option.some.inj (Except.ok.inj same)
        rw [List.isEmpty_iff] at valid
        subst valid
        obtain ⟨values, describes⟩ := (validateConfigDict_iff runtime _).mp validated
        have version : versionOf runtime (Dict.set "version" (.int (config.version + 1)) data) =
            .ok (config.version + 1) := by
          rw [versionOf, Dict.lookup_set, if_pos rfl]
          rfl
        rw [fromDict_of_describes runtime describes version] at found
        have entries := describes.entries
        simp only [entryOf_set_version] at entries
        refine ⟨target, values, field, (Except.ok.inj found).symm,
          ⟨describes.low, describes.high, describes.band⟩, value _ (entries target), ?_⟩
        intro other apart
        obtain ⟨entry, same, -, number⟩ := entries other
        rw [others other apart] at same
        obtain ⟨x, held, rfl⟩ := Option.map_eq_some_iff.mp same
        rw [held]
        exact congrArg some (Except.ok.inj number)
      · cases applied

end TradingControl.Cognitive
