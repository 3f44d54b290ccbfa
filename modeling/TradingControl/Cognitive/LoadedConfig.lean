import TradingControl.Cognitive.ConfigText

/-!
# Loading the configuration

What `load_config` makes of the file.  It answers with the defaults where the file cannot be read as
JSON and where the value in it does not validate, but validation looks at other fields than the
construction that follows, and both convert numbers.
-/

namespace TradingControl.Cognitive

open Python

/-! ## The file -/

/-- What is at the path of the configuration. -/
inductive ConfigFile where
  | missing
  /-- `OSError` from looking at it or reading it. -/
  | unreadable
  | holds (bytes : ByteArray)

/-- Line ends of a file that is read as text. -/
def universalNewlines : List Char → List Char
  | '\r' :: '\n' :: rest => '\n' :: universalNewlines rest
  | '\r' :: rest => '\n' :: universalNewlines rest
  | letter :: rest => letter :: universalNewlines rest
  | [] => []

/-- `read_text`; `UnicodeDecodeError` is a `ValueError`. -/
def readText (bytes : ByteArray) : Except Raised String :=
  match String.fromUTF8? bytes with
  | none => .error .valueError
  | some text => .ok (String.ofList (universalNewlines text.toList))

/-- `json.loads(resolved.read_text())`. -/
def rawConfig (runtime : Runtime) (interpreter : Json.Interpreter) (bytes : ByteArray) :
    Except Raised Value := do
  Json.loads runtime interpreter.depth (← readText bytes)

/-- `from_dict` of a value. -/
def configOf (runtime : Runtime) : Value → Except Raised CognitiveConfig
  | .dict data => CognitiveConfig.fromDict runtime data
  | _ => .error .attributeError

/-- `load_config`. -/
def loadConfig (runtime : Runtime) (interpreter : Json.Interpreter) :
    ConfigFile → Except Raised CognitiveConfig
  | .missing | .unreadable => .ok defaultConfig
  | .holds bytes =>
      match rawConfig runtime interpreter bytes with
      | .error .jsonDecodeError => .ok defaultConfig
      | .error raised => .error raised
      | .ok raw => do
          let errors ← validateConfigDict runtime raw
          if errors ≠ [] then return defaultConfig else configOf runtime raw

/-! ## What is promised -/

/-- Loading does not raise, and what it loads validates. -/
def LoadsSafely (runtime : Runtime) (interpreter : Json.Interpreter) (file : ConfigFile) : Prop :=
  ∃ config, loadConfig runtime interpreter file = .ok config ∧
    validateConfigDict runtime (.dict config.toDict) = .ok []

/-- An entry that `float` does not overflow on. -/
def Convertible (entry : Option Value) : Prop := ∀ number, entry = some (.int number) →
  |number| < floatLimit

/-- A value that validation does not overflow on, with a version that `int` accepts if it is
valid. -/
def Sound (runtime : Runtime) : Value → Prop
  | .dict data => (∀ field, Convertible (entryOf data field)) ∧
      (validateConfigDict runtime (.dict data) = .ok [] →
        ∃ version, versionOf runtime data = .ok version)
  | _ => True

/-- A file that is absent, or is no JSON, or holds a sound value. -/
def Loadable (runtime : Runtime) (interpreter : Json.Interpreter) : ConfigFile → Prop
  | .missing | .unreadable => True
  | .holds bytes => rawConfig runtime interpreter bytes = .error .jsonDecodeError ∨
      ∃ raw, rawConfig runtime interpreter bytes = .ok raw ∧ Sound runtime raw

/-! ## Conversions -/

section Conversions

variable {runtime : Runtime}

theorem toFloat_overflows_iff (value : Value) : runtime.toFloat value = .error .overflowError ↔
    ∃ number, value = .int number ∧ floatLimit ≤ |number| := by
  cases value with
  | int number =>
      rw [Runtime.toFloat]
      split
      case isTrue small => simp [small]
      case isFalse large => simpa using not_lt.mp large
  | str text =>
      rw [Runtime.toFloat]
      cases runtime.parseFloat text <;> simp
  | none => simp [Runtime.toFloat]
  | bool truth => simp [Runtime.toFloat]
  | float number => simp [Runtime.toFloat]
  | nonFinite number => simp [Runtime.toFloat]
  | list items => simp [Runtime.toFloat]
  | dict entries => simp [Runtime.toFloat]

theorem numberWithin_isOk_iff (bounds : Bounds) (value : Value) :
    (∃ within, numberWithin runtime bounds value = .ok within) ↔ Convertible (some value) := by
  have overflows := @toFloat_overflows_iff runtime value
  have convertible : Convertible (some value) ↔ runtime.toFloat value ≠ .error .overflowError := by
    rw [Ne, overflows]
    simp [Convertible]
  rw [convertible, numberWithin]
  cases runtime.toFloat value with
  | ok numeric => simp
  | error raised => cases raised <;> simp

theorem inBounds_isOk_iff (entry : Option Value) (bounds : Bounds) :
    (∃ within, inBounds runtime entry bounds = .ok within) ↔ Convertible entry := by
  rcases entry with _ | value
  · simp [inBounds, Convertible]
  · have number := @numberWithin_isOk_iff runtime bounds value
    cases value with
    | none => simp [inBounds, Convertible]
    | bool truth => simp [inBounds, Convertible]
    | _ =>
        rw [inBounds]
        · exact number
        all_goals simp

theorem checks_isOk_iff {check : Except Raised Bool} {later : Except Raised (List String)}
    {own : Bool → List String} :
    (∃ errors, (do
      let within ← check
      return own within ++ (← later)) = .ok errors) ↔
        (∃ within, check = .ok within) ∧ ∃ errors, later = .ok errors := by
  cases check with
  | error raised => simp [bind, Except.bind]
  | ok within =>
      cases later with
      | error raised => simp [bind, Except.bind]
      | ok errors => simp [bind, Except.bind, pure, Except.pure]

theorem weightErrors_isOk_iff (weights : Payload) (keys : List String) :
    (∃ errors, weightErrors runtime weights keys = .ok errors) ↔
      ∀ key ∈ keys, Convertible (weights.lookup key) := by
  induction keys with
  | nil => simp [weightErrors]
  | cons key rest induction =>
      obtain ⟨own, -, isCons⟩ := weightErrors_cons runtime weights key rest
      rw [isCons, checks_isOk_iff, inBounds_isOk_iff, List.forall_mem_cons, induction]

theorem riskErrors_isOk_iff (risk : Payload) (limits : List (String × Bounds)) :
    (∃ errors, riskErrors runtime risk limits = .ok errors) ↔
      ∀ limit ∈ limits, Convertible (risk.lookup limit.1) := by
  induction limits with
  | nil => simp [riskErrors]
  | cons limit rest induction =>
      obtain ⟨own, -, isCons⟩ := riskErrors_cons runtime risk limit rest
      rw [isCons, checks_isOk_iff, inBounds_isOk_iff, List.forall_mem_cons, induction]

theorem thresholdErrors_isOk_iff (data : Payload) (key : String) (bounds : Bounds) :
    (∃ errors, thresholdErrors runtime data key bounds = .ok errors) ↔
      Convertible (data.lookup key) := by
  rw [← inBounds_isOk_iff _ bounds, thresholdErrors]
  rcases inBounds runtime (data.lookup key) bounds with error | within
  · simp [bind, Except.bind]
  · simp [bind, Except.bind, pure, Except.pure]

theorem crossErrors_isOk {data : Payload} (buy : Convertible (data.lookup "buy_threshold"))
    (sell : Convertible (data.lookup "sell_threshold")) :
    ∃ errors, crossErrors runtime data = .ok errors := by
  obtain ⟨buyWithin, buyChecked⟩ := (@inBounds_isOk_iff runtime _ buyThresholdBounds).mpr buy
  obtain ⟨sellWithin, sellChecked⟩ := (@inBounds_isOk_iff runtime _ sellThresholdBounds).mpr sell
  rw [crossErrors, buyChecked, sellChecked]
  cases buyWithin with
  | false => exact ⟨[], rfl⟩
  | true =>
      cases sellWithin with
      | false => exact ⟨[], rfl⟩
      | true =>
          obtain ⟨buyNumber, ⟨buyValue, buyFound, -, buyReads⟩, -⟩ :=
            (inBounds_iff runtime _ _).mp buyChecked
          obtain ⟨sellNumber, ⟨sellValue, sellFound, -, sellReads⟩, -⟩ :=
            (inBounds_iff runtime _ _).mp sellChecked
          rw [buyFound, sellFound]
          simp [bind, Except.bind, pure, Except.pure, buyReads, sellReads]

theorem weightsErrors_isOk_iff (data : Payload) :
    (∃ errors, weightsErrors runtime data = .ok errors) ↔
      ∀ field ∈ [ConfigField.newsWeight, .techWeight, .macroWeight],
        Convertible (entryOf data field) := by
  simp only [weightsErrors, entryOf, List.forall_mem_cons, ConfigField.path]
  cases data.lookup "weights" with
  | none => simp [Convertible]
  | some value =>
      cases value with
      | dict weights => simp [weightErrors_isOk_iff, weightKeys]
      | _ => simp [Convertible]

theorem riskObjectErrors_isOk_iff (data : Payload) :
    (∃ errors, riskObjectErrors runtime data = .ok errors) ↔
      ∀ field ∈ [ConfigField.maxPositionSizePct, .maxDailyLossPct, .maxExposurePct],
        Convertible (entryOf data field) := by
  simp only [riskObjectErrors, entryOf, List.forall_mem_cons, ConfigField.path]
  cases data.lookup "risk" with
  | none => simp [Convertible]
  | some value =>
      cases value with
      | dict risk => simp [riskErrors_isOk_iff, riskLimits]
      | _ => simp [Convertible]

/-- Validation raises exactly on numbers that `float` overflows on. -/
theorem validateConfigDict_isOk_iff (data : Payload) :
    (∃ errors, validateConfigDict runtime (.dict data) = .ok errors) ↔
      ∀ field, Convertible (entryOf data field) := by
  simp only [validateConfigDict]
  constructor
  · rintro ⟨errors, validated⟩
    simp only [bind_eq_ok] at validated
    obtain ⟨weights, weightsRead, buy, buyRead, sell, sellRead, cross, -, risk, riskRead, -⟩ :=
      validated
    have weightsFit := (weightsErrors_isOk_iff data).mp ⟨weights, weightsRead⟩
    have riskFit := (riskObjectErrors_isOk_iff data).mp ⟨risk, riskRead⟩
    intro field
    cases field with
    | buyThreshold => exact (thresholdErrors_isOk_iff data _ _).mp ⟨buy, buyRead⟩
    | sellThreshold => exact (thresholdErrors_isOk_iff data _ _).mp ⟨sell, sellRead⟩
    | newsWeight => exact weightsFit _ (by simp)
    | techWeight => exact weightsFit _ (by simp)
    | macroWeight => exact weightsFit _ (by simp)
    | maxPositionSizePct => exact riskFit _ (by simp)
    | maxDailyLossPct => exact riskFit _ (by simp)
    | maxExposurePct => exact riskFit _ (by simp)
  · intro fit
    obtain ⟨weights, weightsRead⟩ := (weightsErrors_isOk_iff data).mpr fun field _ => fit field
    obtain ⟨buy, buyRead⟩ :=
      (thresholdErrors_isOk_iff data _ buyThresholdBounds).mpr (fit .buyThreshold)
    obtain ⟨sell, sellRead⟩ :=
      (thresholdErrors_isOk_iff data _ sellThresholdBounds).mpr (fit .sellThreshold)
    obtain ⟨cross, crossRead⟩ := crossErrors_isOk (fit .buyThreshold) (fit .sellThreshold)
    obtain ⟨risk, riskRead⟩ := (riskObjectErrors_isOk_iff data).mpr fun field _ => fit field
    refine ⟨weights ++ buy ++ sell ++ cross ++ risk, ?_⟩
    rw [weightsRead, buyRead, sellRead, crossRead, riskRead]
    rfl

end Conversions

/-! ## Loaded configurations -/

section Loaded

variable {runtime : Runtime} {interpreter : Json.Interpreter}

theorem validates_defaultConfig (runtime : Runtime) :
    validateConfigDict runtime (.dict defaultConfig.toDict) = .ok [] := by
  let values (field : ConfigField) : ℚ := (defaultConfig.valueOf field).getD 0
  have safe : Safe values := by
    refine ⟨fun field => ?_, fun field => ?_, by decide +kernel⟩
    · cases field <;> decide +kernel
    · cases field <;> decide +kernel
  exact (validateConfigDict_iff runtime _).mpr ⟨values, describes_ofValues runtime 1 safe⟩

theorem loadsSafely_default {file : ConfigFile}
    (loaded : loadConfig runtime interpreter file = .ok defaultConfig) :
    LoadsSafely runtime interpreter file :=
  ⟨defaultConfig, loaded, validates_defaultConfig runtime⟩

theorem version_of_fromDict {data : Payload} {config : CognitiveConfig}
    (loaded : CognitiveConfig.fromDict runtime data = .ok config) :
    ∃ version, versionOf runtime data = .ok version := by
  simp only [CognitiveConfig.fromDict, bind_eq_ok] at loaded
  obtain ⟨_, -, _, -, _, -, _, -, _, -, version, read, -⟩ := loaded
  exact ⟨version, read⟩

/-- A valid value is constructed exactly where its version converts. -/
theorem configOf_valid_iff {data : Payload}
    (valid : validateConfigDict runtime (.dict data) = .ok []) :
    (∃ config, configOf runtime (.dict data) = .ok config ∧
      validateConfigDict runtime (.dict config.toDict) = .ok []) ↔
      ∃ version, versionOf runtime data = .ok version := by
  constructor
  · rintro ⟨config, loaded, -⟩
    exact version_of_fromDict loaded
  · rintro ⟨version, read⟩
    obtain ⟨values, describes⟩ := (validateConfigDict_iff runtime data).mp valid
    refine ⟨_, fromDict_of_describes runtime describes read, ?_⟩
    have safe : Safe values := ⟨describes.low, describes.high, describes.band⟩
    exact (validateConfigDict_iff runtime _).mpr ⟨values, describes_ofValues runtime version safe⟩

/-- Once the file has been read as JSON, soundness of the value decides. -/
theorem loadsSafely_raw_iff {bytes : ByteArray} {raw : Value}
    (read : rawConfig runtime interpreter bytes = .ok raw) :
    LoadsSafely runtime interpreter (.holds bytes) ↔ Sound runtime raw := by
  have loaded : loadConfig runtime interpreter (.holds bytes) =
      validateConfigDict runtime raw >>= fun errors =>
        if errors ≠ [] then .ok defaultConfig else configOf runtime raw := by
    rw [loadConfig, read]
    rfl
  cases raw with
  | dict data =>
      rcases validated : validateConfigDict runtime (.dict data) with raised | errors
      · have overflows : ¬∀ field, Convertible (entryOf data field) := by
          rw [← @validateConfigDict_isOk_iff runtime data, validated]
          simp
        rw [validated] at loaded
        refine iff_of_false ?_ fun sound => overflows sound.1
        rintro ⟨config, isConfig, -⟩
        rw [loaded] at isConfig
        cases isConfig
      · have fits : ∀ field, Convertible (entryOf data field) :=
          (@validateConfigDict_isOk_iff runtime data).mp ⟨errors, validated⟩
        rw [validated] at loaded
        by_cases invalid : errors ≠ []
        · refine iff_of_true (loadsSafely_default (loaded.trans (if_pos invalid))) ⟨fits, ?_⟩
          intro valid
          rw [valid] at validated
          exact absurd (Except.ok.inj validated).symm invalid
        · have none := not_not.mp invalid
          have constructed := loaded.trans (if_neg invalid)
          rw [none] at validated
          rw [LoadsSafely, constructed, configOf_valid_iff validated, Sound]
          exact ⟨fun version => ⟨fits, fun _ => version⟩, fun sound => sound.2 validated⟩
  | _ => exact iff_of_true (loadsSafely_default loaded) trivial

/-- Loading is safe exactly on files that are absent or no JSON or hold a sound value. -/
theorem loadsSafely_iff (runtime : Runtime) (interpreter : Json.Interpreter) (file : ConfigFile) :
    LoadsSafely runtime interpreter file ↔ Loadable runtime interpreter file := by
  cases file with
  | missing => exact iff_of_true (loadsSafely_default rfl) trivial
  | unreadable => exact iff_of_true (loadsSafely_default rfl) trivial
  | holds bytes =>
      rcases read : rawConfig runtime interpreter bytes with raised | raw
      · by_cases decode : raised = .jsonDecodeError
        · subst decode
          refine iff_of_true (loadsSafely_default ?_) (.inl read)
          rw [loadConfig, read]
        · have raises : loadConfig runtime interpreter (.holds bytes) = .error raised := by
            rw [loadConfig, read]
            cases raised <;> first | rfl | exact absurd rfl decode
          refine iff_of_false ?_ ?_
          · rintro ⟨config, isConfig, -⟩
            rw [raises] at isConfig
            cases isConfig
          · rw [Loadable, read]
            rintro (same | ⟨raw, same, -⟩)
            · exact decode (Except.error.inj same)
            · cases same
      · rw [loadsSafely_raw_iff read, Loadable, read]
        constructor
        · exact fun sound => .inr ⟨raw, rfl, sound⟩
        · rintro (same | ⟨other, same, sound⟩)
          · cases same
          · rwa [Except.ok.inj same]

end Loaded

/-! ## A version that is null -/

def nullVersionText : String :=
  "\x7b\"version\": null, \"weights\": \x7b\"news\": 0.34, \"tech\": 0.33, \"macro\": 0.33\x7d, " ++
  "\"buy_threshold\": 0.15, \"sell_threshold\": -0.15, \"risk\": \x7b\"max_exposure_pct\": 0.3, " ++
  "\"max_position_size_pct\": 0.05, \"max_daily_loss_pct\": 0.02\x7d\x7d"

theorem rawConfig_toUTF8 (runtime : Runtime) (interpreter : Json.Interpreter) (text : String) :
    rawConfig runtime interpreter text.toUTF8 =
      Json.loads runtime interpreter.depth (String.ofList (universalNewlines text.toList)) := by
  have decoded : String.fromUTF8? text.toUTF8 = some text := dif_pos text.isValidUTF8
  rw [rawConfig, readText, decoded]
  rfl

/-- A text in three pieces, letter by letter. -/
theorem toList_of_pieces {text : String} {first second third : List Char}
    (pieces : text = String.ofList first ++ String.ofList second ++ String.ofList third) :
    text.toList = first ++ second ++ third := by
  rw [pieces, String.toList_append, String.toList_append]
  simp only [String.toList_ofList]

theorem loads_ofList (runtime : Runtime) (depth : ℕ) (chars : List Char) :
    Json.loads runtime depth (String.ofList chars) = (do
      let (value, rest) ← Json.readValue runtime depth (Json.skipSpace chars)
      if Json.skipSpace rest = [] then return value else .error .jsonDecodeError) := by
  rw [Json.loads, String.toList_ofList]

/-- A valid value whose version does not convert. -/
def lacksVersion : Except Raised Value → Bool
  | .ok (.dict data) =>
      decide (validateConfigDict Reference.decimalRuntime (.dict data) = .ok []) &&
        decide (versionOf Reference.decimalRuntime data = .error .typeError)
  | _ => false

/-- The text holds a valid value whose version does not convert. -/
theorem nullVersion_read : ∃ data,
    rawConfig Reference.decimalRuntime Reference.interpreter nullVersionText.toUTF8 =
      .ok (.dict data) ∧
    validateConfigDict Reference.decimalRuntime (.dict data) = .ok [] ∧
    versionOf Reference.decimalRuntime data = .error .typeError := by
  have checked : lacksVersion (Json.loads Reference.decimalRuntime Reference.interpreter.depth
      (String.ofList (universalNewlines nullVersionText.toList))) = true := by
    -- The kernel is slow to decode a string, so the letters are put in its place first.
    rw [toList_of_pieces (rfl : nullVersionText = _), loads_ofList]
    decide +kernel
  rw [rawConfig_toUTF8]
  unfold lacksVersion at checked
  split at checked
  case h_1 data loaded =>
    rw [Bool.and_eq_true] at checked
    exact ⟨data, loaded, of_decide_eq_true checked.1, of_decide_eq_true checked.2⟩
  case h_2 => exact absurd checked Bool.false_ne_true

/-- Startup fails on a version that is null. -/
theorem not_loadsSafely_nullVersion :
    ¬∀ file, LoadsSafely Reference.decimalRuntime Reference.interpreter file := by
  intro all
  obtain ⟨data, read, valid, version⟩ := nullVersion_read
  have sound := (loadsSafely_raw_iff read).mp (all (.holds nullVersionText.toUTF8))
  obtain ⟨number, isVersion⟩ := sound.2 valid
  rw [version] at isVersion
  cases isVersion

end TradingControl.Cognitive
