import Mathlib.Logic.Relation
import TradingControl.Cognitive.Evolution
import TradingControl.Python.JsonRoundTrip

/-!
# Configurations under proposals, as objects and as texts

What proposals make of a valid configuration validates again and differs from it in the target of
the proposal alone.  Applied to the text of a configuration, a proposal leaves the text of what it
makes of the configuration.
-/

namespace TradingControl.Cognitive

open Python

/-! ## Objects -/

/-- A proposal makes one configuration out of the other. -/
def Evolves (runtime : Runtime) (before after : CognitiveConfig) : Prop :=
  ∃ proposal, applyProposalToConfig runtime before proposal = .ok (some after)

/-- The configurations agree in everything but a value, and the version is the next one. -/
structure DiffersOnlyIn (target : ConfigField) (before after : CognitiveConfig) : Prop where
  version : after.version = before.version + 1
  others : ∀ field, field ≠ target → after.valueOf field = before.valueOf field
  weights : Dict.keys after.weights = Dict.keys before.weights

theorem describes_ofValues (runtime : Runtime) (version : ℤ) {values : ConfigField → ℚ}
    (safe : Safe values) :
    Describes runtime (CognitiveConfig.ofValues version values).toDict values where
  entries field := by
    rw [entryOf_toDict, CognitiveConfig.valueOf_ofValues]
    exact ⟨.float (values field), rfl, by simp, rfl⟩
  low := safe.low
  high := safe.high
  band := safe.band

theorem validates_of_applied {runtime : Runtime} {config updated : CognitiveConfig}
    {proposal : Proposal}
    (applied : applyProposalToConfig runtime config proposal = .ok (some updated)) :
    validateConfigDict runtime (.dict updated.toDict) = .ok [] := by
  obtain ⟨_, values, _, rfl, safe, _⟩ := applied_spec applied
  exact (validateConfigDict_iff runtime _).mpr ⟨values, describes_ofValues runtime _ safe⟩

theorem keys_weights_of_fromDict {runtime : Runtime} {data : Payload} {config : CognitiveConfig}
    (loaded : CognitiveConfig.fromDict runtime data = .ok config) :
    Dict.keys config.weights = weightKeys := by
  simp only [CognitiveConfig.fromDict, bind_eq_ok] at loaded
  obtain ⟨_, -, _, -, _, -, _, -, _, -, _, -, _, -, _, -, _, -, _, -, _, -, same⟩ := loaded
  cases same
  rfl

/-- Loaded configurations, and what proposals make of them, have the three weights. -/
theorem keys_weights_of_evolved {runtime : Runtime} {data : Payload}
    {start config : CognitiveConfig} (loaded : CognitiveConfig.fromDict runtime data = .ok start)
    (evolved : Relation.ReflTransGen (Evolves runtime) start config) :
    Dict.keys config.weights = weightKeys := by
  cases evolved with
  | refl => exact keys_weights_of_fromDict loaded
  | tail _ last =>
      obtain ⟨proposal, applied⟩ := last
      obtain ⟨_, values, _, rfl, _⟩ := applied_spec applied
      rfl

theorem differs_of_applied {runtime : Runtime} {config updated : CognitiveConfig}
    {proposal : Proposal} (weights : Dict.keys config.weights = weightKeys)
    (applied : applyProposalToConfig runtime config proposal = .ok (some updated)) :
    ∃ target, proposal.field = some target ∧ DiffersOnlyIn target config updated := by
  obtain ⟨target, values, field, rfl, _, _, others⟩ := applied_spec applied
  refine ⟨target, field, rfl, fun other apart => ?_, weights.symm⟩
  rw [CognitiveConfig.valueOf_ofValues, others other apart]

/-! ## Texts -/

/-- Every float of the configuration has a text of its own. -/
def CognitiveConfig.Prints (runtime : Runtime) (config : CognitiveConfig) : Prop :=
  ∀ field x, config.valueOf field = some x → Json.FloatText runtime x

/-- The version is not too long for a text. -/
def CognitiveConfig.ShortVersion (config : CognitiveConfig) : Prop :=
  (Nat.toDigits 10 config.version.natAbs).length ≤ Json.maxStrDigits

/-- The texts of a configuration are those of its values and its version. -/
theorem faithful_toDict {runtime : Runtime} {version : ℤ} {values : ConfigField → ℚ}
    (prints : (CognitiveConfig.ofValues version values).Prints runtime) :
    Json.Faithful runtime (.dict (CognitiveConfig.ofValues version values).toDict) := by
  have float (field : ConfigField) : Json.Faithful runtime (.float (values field)) :=
    .float _ (prints field _ (CognitiveConfig.valueOf_ofValues version values field))
  have weights : Json.Faithful runtime
      (.dict (CognitiveConfig.ofValues version values).weightsDict) := by
    refine .dict _ (by simp [CognitiveConfig.weightsDict, CognitiveConfig.ofValues, Dict.keys]) ?_
    simp only [CognitiveConfig.weightsDict, CognitiveConfig.ofValues, List.map_cons, List.map_nil,
      List.forall_mem_cons, List.not_mem_nil, IsEmpty.forall_iff, implies_true, and_true]
    exact ⟨float .newsWeight, float .techWeight, float .macroWeight⟩
  have risk : Json.Faithful runtime
      (.dict (CognitiveConfig.ofValues version values).riskDict) := by
    refine .dict _ (by simp [CognitiveConfig.riskDict, Dict.keys]) ?_
    simp only [CognitiveConfig.riskDict, List.forall_mem_cons, List.not_mem_nil,
      IsEmpty.forall_iff, implies_true, and_true]
    exact ⟨float .maxPositionSizePct, float .maxDailyLossPct, float .maxExposurePct⟩
  refine .dict _ (by simp [CognitiveConfig.toDict, Dict.keys]) ?_
  simp only [CognitiveConfig.toDict, List.forall_mem_cons, List.not_mem_nil, IsEmpty.forall_iff,
    implies_true, and_true]
  exact ⟨.int _, weights, float .buyThreshold, float .sellThreshold, risk⟩

theorem fits_toDict {depth : ℕ} (deep : 2 ≤ depth) (config : CognitiveConfig) :
    Json.Fits depth (.dict config.toDict) ↔ config.ShortVersion := by
  obtain ⟨depth, rfl⟩ := Nat.exists_eq_add_of_le' deep
  simp only [CognitiveConfig.toDict, Json.Fits, List.forall_mem_cons, List.not_mem_nil,
    IsEmpty.forall_iff, implies_true, and_true, CognitiveConfig.riskDict,
    CognitiveConfig.weightsDict, List.forall_mem_map]
  exact Iff.rfl

/-- Sorting keeps the numbers of a nested dictionary. -/
theorem entryOf_sortedEntries {runtime : Runtime} (depth : ℕ) {data : Payload}
    (faithful : Json.Faithful runtime (.dict data)) {field : ConfigField} {x : ℚ}
    (found : entryOf data field = some (.float x)) :
    entryOf (Json.sortedEntries (depth + 1) data) field = some (.float x) := by
  cases faithful with
  | dict entries distinct all =>
      rw [entryOf] at found ⊢
      generalize field.path = path at found ⊢
      obtain ⟨_ | group, key⟩ := path
      · dsimp only at found ⊢
        rw [Json.lookup_sortedEntries (depth + 1) distinct, found, Option.map_some,
          Json.sortKeys_float]
      · dsimp only at found ⊢
        rw [Json.lookup_sortedEntries (depth + 1) distinct]
        split at found
        · next entries held =>
            rw [held]
            cases all _ (Dict.mem_of_lookup held) with
            | dict entries inner _ =>
                rw [Option.map_some, Json.sortKeys_dict]
                dsimp only
                rw [Json.lookup_sortedEntries depth inner, found, Option.map_some,
                  Json.sortKeys_float]
        · cases found

theorem loads_configText {runtime : Runtime} (interpreter : Json.Interpreter) {version : ℤ}
    {values : ConfigField → ℚ} (safe : Safe values)
    (prints : (CognitiveConfig.ofValues version values).Prints runtime)
    (short : (CognitiveConfig.ofValues version values).ShortVersion) :
    ∃ text data, configText runtime interpreter (.ofValues version values) = .ok text ∧
      Json.loads runtime interpreter.depth text = .ok (.dict data) ∧
      data.lookup "version" = some (.int version) ∧
      validateConfigDict runtime (.dict data) = .ok [] ∧
      CognitiveConfig.fromDict runtime data = .ok (.ofValues version values) := by
  have deep := interpreter.deep
  obtain ⟨depth, levels⟩ : ∃ depth, interpreter.depth = depth + 2 :=
    ⟨interpreter.depth - 2, by omega⟩
  have faithful := faithful_toDict prints
  have written := (Json.dumps_isOk_iff runtime (depth + 2) ⟨some 2, true⟩ _).mpr
    ((fits_toDict (by omega) _).mpr short)
  cases dumped : Json.dumps runtime (depth + 2) ⟨some 2, true⟩
      (.dict (CognitiveConfig.ofValues version values).toDict) with
  | error raised => rw [dumped] at written; cases written
  | ok text =>
      have newline : ∀ letter ∈ "\n".toList, Json.isSpace letter = true := by
        simp [Json.isSpace]
      have read := Json.loads_dumps dumped faithful newline
      rw [if_pos rfl, Json.sortKeys_dict] at read
      have distinct : (Dict.keys (CognitiveConfig.ofValues version values).toDict).Nodup := by
        simp [CognitiveConfig.toDict, Dict.keys]
      have versionRead : (Json.sortedEntries (depth + 1)
          (CognitiveConfig.ofValues version values).toDict).lookup "version" =
            some (.int version) := by
        rw [Json.lookup_sortedEntries (depth + 1) distinct]
        rfl
      have describes : Describes runtime (Json.sortedEntries (depth + 1)
          (CognitiveConfig.ofValues version values).toDict) values := by
        refine ⟨fun field => ?_, safe.low, safe.high, safe.band⟩
        rw [entryOf_sortedEntries depth faithful]
        · exact ⟨.float (values field), rfl, by simp, rfl⟩
        · rw [entryOf_toDict, CognitiveConfig.valueOf_ofValues]
          rfl
      refine ⟨text ++ "\n", _, ?_, levels ▸ read, versionRead,
        (validateConfigDict_iff runtime _).mpr ⟨values, describes⟩, ?_⟩
      · rw [configText, levels, dumped]
        rfl
      · refine fromDict_of_describes runtime describes ?_
        rw [versionOf, versionRead]
        rfl

/-- A valid text whose version is a whole number holds a configuration. -/
theorem fromDict_of_valid {runtime : Runtime} {data : Payload} {version : ℤ}
    (valid : validateConfigDict runtime (.dict data) = .ok [])
    (read : data.lookup "version" = some (.int version)) :
    ∃ values, CognitiveConfig.fromDict runtime data = .ok (.ofValues version values) := by
  obtain ⟨values, describes⟩ := (validateConfigDict_iff runtime data).mp valid
  exact ⟨values, fromDict_of_describes runtime describes (by rw [versionOf, read]; rfl)⟩

section

variable (runtime : Runtime) (interpreter : Json.Interpreter) (rawText : String)
  (proposal : Proposal)

/-- What becomes of a text is what becomes of the configuration in it: the same exception, a refusal
where the proposal is refused, and else a text that is loaded as the new configuration. -/
def TextAgrees : Except Raised (Option CognitiveConfig) → Prop
  | .error raised => applyToConfigText runtime interpreter rawText proposal = .error raised
  | .ok none => applyToConfigText runtime interpreter rawText proposal =
      .ok (.error "proposal does not apply to the config file or is out of bounds")
  | .ok (some updated) =>
      (¬ updated.ShortVersion →
        ∃ raised, applyToConfigText runtime interpreter rawText proposal = .error raised) ∧
      (updated.ShortVersion → updated.Prints runtime → ∃ newText newData,
        applyToConfigText runtime interpreter rawText proposal = .ok (.ok newText) ∧
        Json.loads runtime interpreter.depth newText = .ok (.dict newData) ∧
        validateConfigDict runtime (.dict newData) = .ok [] ∧
        CognitiveConfig.fromDict runtime newData = .ok updated)

variable {runtime interpreter rawText proposal}

theorem applyToConfigText_eq (proposal : Proposal) {data : Payload} {base : CognitiveConfig}
    (current : currentConfig runtime interpreter rawText = .ok (.dict data))
    (valid : validateConfigDict runtime (.dict data) = .ok [])
    (loaded : CognitiveConfig.fromDict runtime data = .ok base) :
    applyToConfigText runtime interpreter rawText proposal =
      applyProposalToConfig runtime base proposal >>= fun
        | none => .ok (.error "proposal does not apply to the config file or is out of bounds")
        | some updated => configText runtime interpreter updated >>= fun newText =>
            .ok (if newText = rawText then .error "proposal produces no change"
              else .ok newText) := by
  rw [applyToConfigText]
  rw [current]
  dsimp only
  rw [valid]
  simp only [bind, Except.bind, List.isEmpty_nil, Bool.not_true, Bool.false_eq_true, if_false,
    loaded]
  rfl

theorem configText_of_long (runtime : Runtime) (interpreter : Json.Interpreter)
    {config : CognitiveConfig} (long : ¬ config.ShortVersion) :
    ∃ raised, configText runtime interpreter config = .error raised := by
  have deep := interpreter.deep
  have unwritten := mt (Json.dumps_isOk_iff runtime interpreter.depth ⟨some 2, true⟩ _).mp
    (mt (fits_toDict (by omega) config).mp long)
  cases dumped : Json.dumps runtime interpreter.depth ⟨some 2, true⟩ (.dict config.toDict) with
  | error raised => exact ⟨raised, by rw [configText, dumped]; rfl⟩
  | ok text =>
      rw [dumped] at unwritten
      exact absurd rfl unwritten

/-- The text of a configuration with another version is another text. -/
theorem ne_of_version {newText : String} {data newData : Payload} {version newVersion : ℤ}
    (current : currentConfig runtime interpreter rawText = .ok (.dict data))
    (read : data.lookup "version" = some (.int version))
    (reads : Json.loads runtime interpreter.depth newText = .ok (.dict newData))
    (newRead : newData.lookup "version" = some (.int newVersion)) (other : newVersion ≠ version) :
    newText ≠ rawText := by
  rintro rfl
  rw [currentConfig] at current
  split_ifs at current with blank
  · cases current
    cases read
  · rw [reads] at current
    cases current
    rw [read] at newRead
    cases newRead
    exact other rfl

theorem text_agrees (proposal : Proposal) {data : Payload} {version : ℤ} {values : ConfigField → ℚ}
    (current : currentConfig runtime interpreter rawText = .ok (.dict data))
    (valid : validateConfigDict runtime (.dict data) = .ok [])
    (read : data.lookup "version" = some (.int version))
    (loaded : CognitiveConfig.fromDict runtime data = .ok (.ofValues version values)) :
    TextAgrees runtime interpreter rawText proposal
      (applyProposalToConfig runtime (.ofValues version values) proposal) := by
  have outcome := applyToConfigText_eq proposal current valid loaded
  cases applied : applyProposalToConfig runtime (.ofValues version values) proposal with
  | error raised =>
      rw [applied] at outcome
      exact outcome
  | ok result =>
      rw [applied] at outcome
      cases result with
      | none => exact outcome
      | some updated =>
          refine ⟨fun long => ?_, fun short prints => ?_⟩
          · obtain ⟨raised, written⟩ := configText_of_long runtime interpreter long
            refine ⟨raised, ?_⟩
            rw [outcome]
            dsimp only [bind, Except.bind]
            rw [written]
          · obtain ⟨_, newValues, _, rfl, safe, _⟩ := applied_spec applied
            obtain ⟨newText, newData, written, reads, newVersion, newValid, newLoaded⟩ :=
              loads_configText interpreter safe prints short
            refine ⟨newText, newData, ?_, reads, newValid, newLoaded⟩
            have changed : newText ≠ rawText :=
              ne_of_version current read reads newVersion (by simp [CognitiveConfig.ofValues])
            rw [outcome]
            dsimp only [bind, Except.bind]
            rw [written]
            dsimp only
            rw [if_neg changed]

end

/-- Whatever proposals are applied to a valid configuration one after the other, what each of them
gives validates and differs from what it was applied to in its target alone, and applying it to a
text agrees with applying it to the configuration in the text. -/
structure EvolvesSafely (runtime : Runtime) (interpreter : Json.Interpreter) : Prop where
  validates : ∀ data start config proposal updated,
    validateConfigDict runtime (.dict data) = .ok [] →
    CognitiveConfig.fromDict runtime data = .ok start →
    Relation.ReflTransGen (Evolves runtime) start config →
    applyProposalToConfig runtime config proposal = .ok (some updated) →
    validateConfigDict runtime (.dict updated.toDict) = .ok []
  differs : ∀ data start config proposal updated,
    validateConfigDict runtime (.dict data) = .ok [] →
    CognitiveConfig.fromDict runtime data = .ok start →
    Relation.ReflTransGen (Evolves runtime) start config →
    applyProposalToConfig runtime config proposal = .ok (some updated) →
    ∃ target, proposal.field = some target ∧ DiffersOnlyIn target config updated
  commutes : ∀ rawText data version proposal,
    currentConfig runtime interpreter rawText = .ok (.dict data) →
    validateConfigDict runtime (.dict data) = .ok [] →
    data.lookup "version" = some (.int version) →
    ∃ base, CognitiveConfig.fromDict runtime data = .ok base ∧
      TextAgrees runtime interpreter rawText proposal (applyProposalToConfig runtime base proposal)

theorem evolves_safely (runtime : Runtime) (interpreter : Json.Interpreter) :
    EvolvesSafely runtime interpreter where
  validates _ _ _ _ _ _ _ _ applied := validates_of_applied applied
  differs _ _ _ _ _ _ loaded evolved applied :=
    differs_of_applied (keys_weights_of_evolved loaded evolved) applied
  commutes _ _ _ _ current valid read := by
    obtain ⟨values, loaded⟩ := fromDict_of_valid valid read
    exact ⟨_, loaded, text_agrees _ current valid read loaded⟩

/-! ## A version too long for a text -/

theorem isWhitespace_of_strip {text : String} (blank : strip text = "") :
    ∀ letter ∈ text.toList, isWhitespace letter = true := by
  rw [strip] at blank
  have nothing := congrArg String.toList blank
  rw [String.toList_ofList, String.toList_empty, List.reverse_eq_nil_iff,
    List.dropWhile_eq_nil_iff] at nothing
  have front : text.toList.dropWhile isWhitespace = [] := by
    cases stripped : text.toList.dropWhile isWhitespace with
    | nil => rfl
    | cons letter rest =>
        have some : text.toList.dropWhile isWhitespace ≠ [] := by
          rw [stripped]
          exact List.cons_ne_nil letter rest
        have apart := List.head_dropWhile_not isWhitespace some
        have space := nothing letter (by simp [stripped])
        simp only [stripped, List.head_cons] at apart
        rw [apart] at space
        cases space
  exact List.dropWhile_eq_nil_iff.mp front

theorem ne_of_isWhitespace {letter other : Char} (space : isWhitespace letter = true)
    (mark : isWhitespace other = false) : letter ≠ other := by
  rintro rfl
  rw [mark] at space
  cases space

theorem not_isDigit_of_isWhitespace {letter : Char} (space : isWhitespace letter = true) :
    letter.isDigit = false := by
  rw [Bool.eq_false_iff]
  intro digit
  simp only [isWhitespace, Bool.or_eq_true, Bool.and_eq_true, decide_eq_true_eq] at space
  simp only [Char.isDigit, Bool.and_eq_true, decide_eq_true_eq, ge_iff_le,
    UInt32.le_iff_toNat_le] at digit
  have code : letter.toNat = letter.val.toNat := rfl
  rw [code] at space
  have low : '0'.val.toNat = 48 := rfl
  have high : '9'.val.toNat = 57 := rfl
  omega

theorem readOnce_whitespace {runtime : Runtime} {inner : Option (Json.Reader Value)} {letter : Char}
    (space : isWhitespace letter = true) (rest : List Char) :
    Json.readOnce runtime inner (letter :: rest) = .error .jsonDecodeError := by
  have other : ∀ mark, isWhitespace mark = false → letter ≠ mark :=
    fun mark apart => ne_of_isWhitespace space apart
  have word : Json.readWord (letter :: rest) = none := by
    rw [Json.readWord, Option.map_eq_none_iff, List.find?_eq_none]
    intro word listed
    simp only [Json.words, List.mem_cons, List.not_mem_nil, or_false] at listed
    rcases listed with rfl | rfl | rfl | rfl | rfl | rfl <;>
      simp [List.isPrefixOf, (other 'n' rfl).symm, (other 't' rfl).symm, (other 'f' rfl).symm,
        (other 'N' rfl).symm, (other 'I' rfl).symm, (other '-' rfl).symm]
  have numeral : Json.scanNumeral (letter :: rest) = none := by
    have unsigned : Json.scanSign (letter :: rest) = (false, letter :: rest) := by
      rw [Json.scanSign]
      intro tail minus
      exact other '-' rfl (List.cons.inj minus).1
    rw [Json.scanNumeral, unsigned]
    simp only [Json.scanWhole, if_neg (other '0' rfl), not_isDigit_of_isWhitespace space]
    rfl
  simp only [Json.readOnce, if_neg (other '\x22' rfl), if_neg (other '[' rfl),
    if_neg (other '\x7b' rfl), word, Json.readNumber, numeral]

theorem loads_whitespace {runtime : Runtime} {depth : ℕ} {text : String}
    (blank : ∀ letter ∈ text.toList, isWhitespace letter = true) :
    Json.loads runtime depth text = .error .jsonDecodeError := by
  have reads : Json.readValue runtime depth (Json.skipSpace text.toList) =
      .error .jsonDecodeError := by
    cases skipped : Json.skipSpace text.toList with
    | nil => cases depth <;> rfl
    | cons letter rest =>
        have member : letter ∈ text.toList :=
          (List.dropWhile_sublist _).subset (skipped ▸ List.mem_cons_self)
        have space := blank letter member
        cases depth with
        | zero => exact readOnce_whitespace space rest
        | succ depth => exact readOnce_whitespace space rest
  rw [Json.loads, reads]
  rfl

theorem currentConfig_of_loads {runtime : Runtime} {interpreter : Json.Interpreter} {text : String}
    {value : Value} (loads : Json.loads runtime interpreter.depth text = .ok value) :
    currentConfig runtime interpreter text = .ok value := by
  rw [currentConfig]
  split_ifs with blank
  · rw [loads_whitespace (isWhitespace_of_strip blank)] at loads
    cases loads
  · exact loads

/-- The last version that can be written. -/
def lastVersion : ℕ := 10 ^ Json.maxStrDigits - 1

def lastValues : ConfigField → ℚ
  | .newsWeight => 34 / 100
  | .techWeight => 33 / 100
  | .macroWeight => 33 / 100
  | .buyThreshold => 15 / 100
  | .sellThreshold => -15 / 100
  | .maxPositionSizePct => 5 / 100
  | .maxDailyLossPct => 2 / 100
  | .maxExposurePct => 30 / 100

/-- The default configuration with the last version. -/
def lastConfig : CognitiveConfig := .ofValues lastVersion lastValues

/-- The text of the configuration. -/
def lastText : String :=
  match configText Reference.decimalRuntime Reference.interpreter lastConfig with
  | .ok text => text
  | .error _ => ""

theorem shortVersion_iff (config : CognitiveConfig) :
    config.ShortVersion ↔ config.version.natAbs < 10 ^ Json.maxStrDigits :=
  Nat.length_toDigits_le_iff (by decide) (by decide)

/-- A weight beyond its bounds. -/
def sampleProposal : Proposal where
  proposalId := "proposal-1"
  proposalType := "weight_change"
  target := "weights.news"
  newValue := .float (7 / 5)

theorem lastConfig_applied : ∃ updated,
    applyProposalToConfig Reference.decimalRuntime lastConfig sampleProposal =
      .ok (some updated) := by
  have applies : returnsSome
      (applyProposalToConfig Reference.decimalRuntime lastConfig sampleProposal) = true := by
    decide +kernel
  exact exists_of_returnsSome applies

theorem lastConfig_prints : lastConfig.Prints Reference.decimalRuntime := by
  intro field x found
  rw [lastConfig, CognitiveConfig.valueOf_ofValues] at found
  obtain rfl := Option.some.inj found
  have printed : ∀ value ∈ ConfigField.all.map lastValues,
      Json.FloatText Reference.decimalRuntime value := by
    decide +kernel
  exact printed _ (List.mem_map_of_mem (by cases field <;> decide))

theorem lastValues_safe : Safe lastValues := by
  refine ⟨fun field => ?_, fun field => ?_, by decide +kernel⟩
  · cases field <;> decide +kernel
  · cases field <;> decide +kernel

/-- The configuration in a text changes, but the interpreter does not write its next version. -/
theorem lastText_raises : ∃ data base updated raised,
    currentConfig Reference.decimalRuntime Reference.interpreter lastText = .ok (.dict data) ∧
    validateConfigDict Reference.decimalRuntime (.dict data) = .ok [] ∧
    data.lookup "version" = some (.int lastVersion) ∧
    CognitiveConfig.fromDict Reference.decimalRuntime data = .ok base ∧
    applyProposalToConfig Reference.decimalRuntime base sampleProposal = .ok (some updated) ∧
    applyToConfigText Reference.decimalRuntime Reference.interpreter lastText sampleProposal =
      .error raised := by
  have below : lastVersion < 10 ^ Json.maxStrDigits :=
    Nat.sub_lt (Nat.pow_pos (by decide)) (by decide)
  have short : lastConfig.ShortVersion := (shortVersion_iff lastConfig).mpr below
  obtain ⟨text, data, written, reads, version, valid, loaded⟩ :=
    loads_configText Reference.interpreter lastValues_safe lastConfig_prints short
  have same : lastText = text := by
    unfold lastText lastConfig
    rw [written]
  obtain ⟨updated, applied⟩ := lastConfig_applied
  have current := currentConfig_of_loads reads
  rw [← same] at current
  have agrees := text_agrees sampleProposal current valid version loaded
  rw [show CognitiveConfig.ofValues lastVersion lastValues = lastConfig from rfl, applied] at agrees
  have long : ¬ updated.ShortVersion := by
    obtain ⟨_, values, _, rfl, _⟩ := applied_spec applied
    have next : lastVersion + 1 = 10 ^ Json.maxStrDigits :=
      Nat.sub_add_cancel (Nat.pow_pos (by decide))
    have beyond : (CognitiveConfig.ofValues (lastConfig.version + 1) values).version.natAbs =
        lastVersion + 1 :=
      Int.natAbs_natCast (lastVersion + 1)
    rw [shortVersion_iff, beyond, next]
    exact Nat.lt_irrefl _
  obtain ⟨raised, result⟩ := agrees.1 long
  exact ⟨data, lastConfig, updated, raised, current, valid, version, loaded, applied, result⟩

/-! ## A text that evolves -/

/-- The default configuration at version 3, on one line and with a whole number for the exposure. -/
def sampleText : String :=
  "\x7b\"version\": 3, \"weights\": \x7b\"news\": 0.34, \"tech\": 0.33, \"macro\": 0.33\x7d, " ++
  "\"buy_threshold\": 0.15, \"sell_threshold\": -0.15, \"risk\": \x7b\"max_exposure_pct\": 1, " ++
  "\"max_position_size_pct\": 0.05, \"max_daily_loss_pct\": 0.02\x7d\x7d"

/-- What becomes of the configuration in the text. -/
def sampleUpdated : CognitiveConfig where
  version := 4
  weights := [("news", 1), ("tech", 33 / 100), ("macro", 33 / 100)]
  buyThreshold := 15 / 100
  sellThreshold := -15 / 100
  maxPositionSizePct := 5 / 100
  maxDailyLossPct := 2 / 100
  maxExposurePct := 1

/-- The text holds a valid configuration of version 3 that the proposal makes the updated one of. -/
def sampleChecks (runtime : Runtime) (interpreter : Json.Interpreter) : Bool :=
  match currentConfig runtime interpreter sampleText with
  | .ok (.dict data) =>
      (match validateConfigDict runtime (.dict data) with
        | .ok [] => true
        | _ => false) &&
      (match data.lookup "version" with
        | some (.int version) => version = 3
        | _ => false) &&
      (match CognitiveConfig.fromDict runtime data with
        | .ok base =>
            match applyProposalToConfig runtime base sampleProposal with
            | .ok (some updated) => updated = sampleUpdated
            | _ => false
        | _ => false)
  | _ => false

theorem sampleText_evolves : ∃ newText newData,
    applyToConfigText Reference.decimalRuntime Reference.interpreter sampleText sampleProposal =
      .ok (.ok newText) ∧
    Json.loads Reference.decimalRuntime 900 newText = .ok (.dict newData) ∧
    CognitiveConfig.fromDict Reference.decimalRuntime newData = .ok sampleUpdated := by
  have checks : sampleChecks Reference.decimalRuntime Reference.interpreter = true := by
    decide +kernel
  have prints : sampleUpdated.Prints Reference.decimalRuntime := by
    intro field x found
    have printed : ∀ x ∈ ([1, 33 / 100, 15 / 100, -15 / 100, 5 / 100, 2 / 100] : List ℚ),
        Json.FloatText Reference.decimalRuntime x := by
      decide +kernel
    refine printed x ?_
    cases field <;> cases found <;> simp [sampleUpdated]
  have short : sampleUpdated.ShortVersion := by
    unfold CognitiveConfig.ShortVersion
    decide +kernel
  unfold sampleChecks at checks
  split at checks
  · next data current =>
      simp only [Bool.and_eq_true] at checks
      obtain ⟨⟨valid, read⟩, applied⟩ := checks
      split at valid
      · next validated =>
          split at read
          · next version found =>
              obtain ⟨base, loaded, agrees⟩ :=
                (evolves_safely Reference.decimalRuntime Reference.interpreter).commutes
                  sampleText data version sampleProposal current validated found
              rw [loaded] at applied
              dsimp only at applied
              split at applied
              · next updated same =>
                  rw [same] at agrees
                  obtain rfl : updated = sampleUpdated := of_decide_eq_true applied
                  obtain ⟨newText, newData, written, reads, _, newLoaded⟩ :=
                    agrees.2 short prints
                  exact ⟨newText, newData, written, reads, newLoaded⟩
              · cases applied
          · cases read
      · cases valid
  · cases checks

end TradingControl.Cognitive
