import TradingControl.Cognitive.LoadedConfig

/-!
# Parameter overrides

The file of overrides is read when the constants are imported.  What is not on the allowlist, not
numeric or out of bounds is dropped, and a file that is no JSON counts as empty, but reading,
decoding and converting raise other exceptions too.
-/

namespace TradingControl

open Python

/-! ## Parameters -/

namespace Parameter

/-- The key of the parameter in `PARAM_BOUNDS`. -/
def name : Parameter → String
  | signalConfidenceMinGate => "SIGNAL_CONFIDENCE_MIN_GATE"
  | executionDecisionThreshold => "EXECUTION_DECISION_THRESHOLD"
  | executionDecisionThresholdMemory => "EXECUTION_DECISION_THRESHOLD_MEMORY"
  | stopLossPct => "STOP_LOSS_PCT"
  | takeProfitPct => "TAKE_PROFIT_PCT"
  | maxRiskPerTradePct => "MAX_RISK_PER_TRADE_PCT"
  | kellyFractionScale => "KELLY_FRACTION_SCALE"
  | trailingStopArmPct => "TRAILING_STOP_ARM_PCT"
  | trailingStopGivebackFrac => "TRAILING_STOP_GIVEBACK_FRAC"
  | stalePositionMaxAgeSeconds => "STALE_POSITION_MAX_AGE_SECONDS"
  | stalePositionPnlBandPct => "STALE_POSITION_PNL_BAND_PCT"
  | llmCallDelayMs => "LLM_CALL_DELAY_MS"

/-- The parameters in the order of `PARAM_BOUNDS`. -/
def all : List Parameter :=
  [signalConfidenceMinGate, executionDecisionThreshold, executionDecisionThresholdMemory,
    stopLossPct, takeProfitPct, maxRiskPerTradePct, kellyFractionScale, trailingStopArmPct,
    trailingStopGivebackFrac, stalePositionMaxAgeSeconds, stalePositionPnlBandPct, llmCallDelayMs]

/-- The parameter of a key of `PARAM_BOUNDS`. -/
def ofName (key : String) : Option Parameter := all.find? fun parameter => parameter.name = key

/-- Both bounds are whole numbers; the source writes these as integers. -/
def whole (parameter : Parameter) : Bool :=
  (paramBounds parameter).1.den = 1 && (paramBounds parameter).2.den = 1

theorem mem_all (parameter : Parameter) : parameter ∈ all := by
  cases parameter <;> decide

theorem name_injective : Function.Injective name := by
  intro first second
  cases first <;> cases second <;> decide

theorem name_of_ofName {key : String} {parameter : Parameter}
    (found : ofName key = some parameter) : parameter.name = key := by
  rw [ofName] at found
  simpa using List.find?_some found

theorem ofName_eq_some_iff {key : String} {parameter : Parameter} :
    ofName key = some parameter ↔ parameter.name = key := by
  refine ⟨name_of_ofName, ?_⟩
  rintro rfl
  cases found : ofName parameter.name with
  | none => exact absurd (List.find?_eq_none.mp found parameter parameter.mem_all) (by simp)
  | some other => rw [name_injective (name_of_ofName found)]

end Parameter

namespace ParamOverrides

variable (interpreter : Interpreter)

/-! ## Validation -/

/-- `_NAME_RE.match`; its `$` also matches in front of a line break at the end. -/
def isName (parameter : String) : Bool :=
  match parameter.toList with
  | [] => false
  | first :: rest =>
      let body := if rest.getLast? = some '\n' then rest.dropLast else rest
      first.isUpper && body.all fun letter => letter.isUpper || letter.isDigit || letter = '_'

/-- `_coerce_like_bounds`. -/
def coerceLikeBounds (parameter : String) (value : Number) : Except Raised Value :=
  match Parameter.ofName parameter with
  | none => .error .keyError
  | some known =>
      if known.whole then (interpreter.toInt value.toValue).map .int else .ok value.toValue

/-- A bound as the source writes it. -/
def boundText (parameter : Parameter) (bound : ℚ) : String :=
  interpreter.repr (if parameter.whole then .int bound.num else .float bound)

/-- `validate_param_change` of a parameter on the allowlist. -/
def validateNumber (parameter : Parameter) (proposed : Value) : Except Raised (Option String) :=
  match interpreter.float proposed with
  | .error .typeError | .error .valueError =>
      .ok (some ("proposed value is not numeric: " ++ interpreter.repr proposed))
  | .error raised => .error raised
  | .ok numeric =>
      let lo := (paramBounds parameter).1
      let hi := (paramBounds parameter).2
      if Number.le (.finite lo) numeric && Number.le numeric (.finite hi) then .ok none
      else
        .ok (some ("proposed value " ++ interpreter.repr numeric.toValue ++
          " outside safe bounds [" ++ boundText interpreter parameter lo ++ ", " ++
          boundText interpreter parameter hi ++ "] for " ++ parameter.name))

/-- `validate_param_change`: the error, if the change is not safe. -/
def validateParamChange (parameter : String) (proposed : Value) : Except Raised (Option String) :=
  if isName parameter = false then
    .ok (some ("invalid parameter name: " ++ interpreter.repr (.str parameter)))
  else
    match Parameter.ofName parameter with
    | none => .ok (some ("parameter not in the auto-editable allowlist: " ++ parameter))
    | some known =>
        match proposed with
        | .none | .bool _ =>
            .ok (some ("proposed value must be numeric, got " ++ interpreter.repr proposed))
        | _ => validateNumber interpreter known proposed

/-! ## Loading -/

/-- One entry of `sanitize_overrides`. -/
def sanitizeEntry (clean : Dict String Value) (entry : String × Value) :
    Except Raised (Dict String Value) := do
  match ← validateParamChange interpreter entry.1 entry.2 with
  | some _ => return clean
  | none =>
      let numeric ← interpreter.float entry.2
      return Dict.set entry.1 (← coerceLikeBounds interpreter entry.1 numeric) clean

/-- `sanitize_overrides`. -/
def sanitizeOverrides : Value → Except Raised (Dict String Value)
  | .dict raw => raw.foldlM (sanitizeEntry interpreter) []
  | _ => .ok []

/-- `json.loads(p.read_text())`. -/
def rawOverrides (bytes : ByteArray) : Except Raised Value := do
  Json.loads interpreter.toRuntime interpreter.depth (← Cognitive.readText bytes)

/-- `load_overrides`. -/
def loadOverrides : Cognitive.ConfigFile → Except Raised (Dict String Value)
  | .missing | .unreadable => .ok []
  | .holds bytes =>
      match rawOverrides interpreter bytes with
      | .error .jsonDecodeError => .ok []
      | .error raised => .error raised
      | .ok raw => sanitizeOverrides interpreter raw

/-! ## Entries -/

/-- `float` overflows on the value of a known parameter. -/
def Overflows (entry : String × Value) : Prop :=
  (Parameter.ofName entry.1).isSome ∧ ¬Cognitive.Convertible (some entry.2)

/-- A number in the form that the bounds of its parameter have. -/
def coerced (parameter : Parameter) (x : ℚ) : Value :=
  if parameter.whole then .int (x.num.tdiv x.den) else .float x

def numberFor (parameter : Parameter) (value : Value) : Option ℚ :=
  match value with
  | .bool _ => none
  | _ =>
      match interpreter.float value with
      | .ok (.finite x) => if WithinBounds parameter x then some x else none
      | _ => none

/-- The value that an entry gets if it is kept. -/
def keptValue (key : String) (value : Value) : Option Value :=
  (Parameter.ofName key).bind fun known => (numberFor interpreter known value).map (coerced known)

def keep (clean : Dict String Value) (entry : String × Value) : Dict String Value :=
  match keptValue interpreter entry.1 entry.2 with
  | some value => Dict.set entry.1 value clean
  | none => clean

variable {interpreter}

theorem isName_name (parameter : Parameter) : isName parameter.name = true := by
  cases parameter <;> decide +kernel

theorem float_overflows_iff (value : Value) :
    interpreter.float value = .error .overflowError ↔
      ¬Cognitive.Convertible (some value) := by
  cases value with
  | int number =>
      by_cases small : |number| < floatLimit
      · have fits : Cognitive.Convertible (some (.int number)) := by
          rintro other same
          cases same
          exact small
        refine iff_of_false (fun raised => ?_) (not_not.mpr fits)
        rw [Interpreter.float, if_pos small] at raised
        cases raised
      · refine iff_of_true ?_ fun fits => small (fits number rfl)
        rw [Interpreter.float, if_neg small]
  | str text =>
      rw [Interpreter.float]
      cases interpreter.parseNumber text <;> simp [Cognitive.Convertible]
  | _ => simp [Interpreter.float, Cognitive.Convertible]

/-- `float` raises nothing else than the two exceptions that are caught and the overflow. -/
theorem float_cases (value : Value) :
    (∃ number, interpreter.float value = .ok number) ∨
      interpreter.float value = .error .typeError ∨ interpreter.float value = .error .valueError ∨
      interpreter.float value = .error .overflowError := by
  cases value with
  | int number =>
      rw [Interpreter.float]
      split
      · exact .inl ⟨_, rfl⟩
      · exact .inr (.inr (.inr rfl))
  | str text =>
      rw [Interpreter.float]
      cases interpreter.parseNumber text with
      | none => exact .inr (.inr (.inl rfl))
      | some number => exact .inl ⟨number, rfl⟩
  | none => exact .inr (.inl rfl)
  | list items => exact .inr (.inl rfl)
  | dict entries => exact .inr (.inl rfl)
  | bool truth => exact .inl ⟨_, rfl⟩
  | float number => exact .inl ⟨_, rfl⟩
  | nonFinite number => exact .inl ⟨_, rfl⟩

theorem coerceLikeBounds_finite (parameter : Parameter) (x : ℚ) :
    coerceLikeBounds interpreter parameter.name (.finite x) = .ok (coerced parameter x) := by
  rw [coerceLikeBounds, Parameter.ofName_eq_some_iff.mpr rfl, coerced]
  dsimp only
  split_ifs <;> rfl

theorem numberFor_eq {value : Value} (untrue : ∀ truth, value ≠ .bool truth)
    (parameter : Parameter) :
    numberFor interpreter parameter value =
      match interpreter.float value with
      | .ok (.finite x) => if WithinBounds parameter x then some x else none
      | _ => none := by
  cases value with
  | bool truth => exact absurd rfl (untrue truth)
  | _ => simp only [numberFor]

theorem le_bounds (parameter : Parameter) (x : ℚ) :
    (Number.le (.finite (paramBounds parameter).1) (.finite x) &&
      Number.le (.finite x) (.finite (paramBounds parameter).2)) =
        decide (WithinBounds parameter x) := by
  rw [Number.le_finite, Number.le_finite, Bool.eq_iff_iff]
  simp only [Bool.and_eq_true, decide_eq_true_eq]
  exact Iff.rfl

theorem not_within_nonFinite (lo hi : ℚ) (value : NonFinite) :
    (Number.le (.finite lo) (.nonFinite value) && Number.le (.nonFinite value) (.finite hi)) =
      false := by
  cases value <;> rfl

/-- What `validate_param_change` says of a value that is no truth value. -/
theorem validateNumber_cases {value : Value} (untrue : ∀ truth, value ≠ .bool truth)
    (parameter : Parameter) :
    (validateNumber interpreter parameter value = .error .overflowError ∧
      ¬Cognitive.Convertible (some value)) ∨
    (Cognitive.Convertible (some value) ∧ validateNumber interpreter parameter value = .ok none ∧
      ∃ x, interpreter.float value = .ok (.finite x) ∧
        numberFor interpreter parameter value = some x) ∨
    (Cognitive.Convertible (some value) ∧
      (∃ error, validateNumber interpreter parameter value = .ok (some error)) ∧
        numberFor interpreter parameter value = none) := by
  have overflows := @float_overflows_iff interpreter value
  rw [validateNumber, numberFor_eq untrue]
  rcases float_cases value with ⟨number, read⟩ | read | read | read
  · have fits : Cognitive.Convertible (some value) := by
      by_contra large
      rw [overflows.mpr large] at read
      cases read
    rw [read]
    cases number with
    | finite x =>
        by_cases within : WithinBounds parameter x
        · refine .inr (.inl ⟨fits, ?_, x, rfl, if_pos within⟩)
          exact if_pos ((le_bounds parameter x).trans (decide_eq_true within))
        · refine .inr (.inr ⟨fits, ⟨_, if_neg ?_⟩, if_neg within⟩)
          rw [le_bounds]
          exact fun inside => within (of_decide_eq_true inside)
    | nonFinite number =>
        refine .inr (.inr ⟨fits, ⟨_, if_neg ?_⟩, rfl⟩)
        rw [not_within_nonFinite]
        exact Bool.false_ne_true
  all_goals rw [read] at overflows ⊢
  · exact .inr (.inr ⟨by simpa using overflows, ⟨_, rfl⟩, rfl⟩)
  · exact .inr (.inr ⟨by simpa using overflows, ⟨_, rfl⟩, rfl⟩)
  · exact .inl ⟨rfl, overflows.mp rfl⟩

theorem validateParamChange_of_known {known : Parameter} {value : Value}
    (untrue : ∀ truth, value ≠ .bool truth) (something : value ≠ .none) :
    validateParamChange interpreter known.name value = validateNumber interpreter known value := by
  have named : ¬isName known.name = false := by simp [isName_name]
  rw [validateParamChange, if_neg named, Parameter.ofName_eq_some_iff.mpr rfl]
  cases value with
  | none => exact absurd rfl something
  | bool truth => exact absurd rfl (untrue truth)
  | _ => rfl

theorem validateParamChange_cases (key : String) (value : Value) :
    (validateParamChange interpreter key value = .error .overflowError ∧ Overflows (key, value)) ∨
    (¬Overflows (key, value) ∧ validateParamChange interpreter key value = .ok none ∧
      ∃ known x, Parameter.name known = key ∧ interpreter.float value = .ok (.finite x) ∧
        numberFor interpreter known value = some x) ∨
    (¬Overflows (key, value) ∧
      (∃ error, validateParamChange interpreter key value = .ok (some error)) ∧
        keptValue interpreter key value = none) := by
  cases found : Parameter.ofName key with
  | none =>
      have unknown : ¬Overflows (key, value) := by simp [Overflows, found]
      refine .inr (.inr ⟨unknown, ?_, by rw [keptValue, found]; rfl⟩)
      rw [validateParamChange, found]
      split_ifs
      · exact ⟨_, rfl⟩
      · exact ⟨_, rfl⟩
  | some known =>
      obtain rfl := Parameter.name_of_ofName found
      have overflows : Overflows (known.name, value) ↔ ¬Cognitive.Convertible (some value) := by
        simp [Overflows, found]
      have kept : keptValue interpreter known.name value =
          (numberFor interpreter known value).map (coerced known) := by
        rw [keptValue, found]
        rfl
      have named : ¬isName known.name = false := by simp [isName_name]
      rw [overflows, kept, not_not]
      by_cases truth : ∃ truth, value = .bool truth
      · obtain ⟨truth, rfl⟩ := truth
        refine .inr (.inr ⟨by simp [Cognitive.Convertible], ?_, rfl⟩)
        rw [validateParamChange, if_neg named, found]
        exact ⟨_, rfl⟩
      by_cases blank : value = .none
      · subst blank
        refine .inr (.inr ⟨by simp [Cognitive.Convertible], ?_, rfl⟩)
        rw [validateParamChange, if_neg named, found]
        exact ⟨_, rfl⟩
      have untrue : ∀ other, value ≠ .bool other := fun other same => truth ⟨other, same⟩
      rw [validateParamChange_of_known untrue blank]
      rcases @validateNumber_cases interpreter value untrue known with
        ⟨raises, large⟩ | ⟨fits, valid, x, read, number⟩ | ⟨fits, refused, none⟩
      · exact .inl ⟨raises, large⟩
      · exact .inr (.inl ⟨fits, valid, known, x, rfl, read, number⟩)
      · exact .inr (.inr ⟨fits, refused, by rw [none]; rfl⟩)

/-- An entry raises, or is kept or dropped. -/
theorem sanitizeEntry_eq (clean : Dict String Value) (entry : String × Value) :
    (sanitizeEntry interpreter clean entry = .error .overflowError ∧ Overflows entry) ∨
      (sanitizeEntry interpreter clean entry = .ok (keep interpreter clean entry) ∧
        ¬Overflows entry) := by
  obtain ⟨key, value⟩ := entry
  rcases @validateParamChange_cases interpreter key value with
    ⟨raises, large⟩ | ⟨fits, valid, known, x, rfl, read, number⟩ | ⟨fits, ⟨error, refused⟩, none⟩
  · left
    rw [sanitizeEntry, raises]
    exact ⟨rfl, large⟩
  · right
    have kept : keptValue interpreter known.name value = some (coerced known x) := by
      rw [keptValue, Parameter.ofName_eq_some_iff.mpr rfl]
      simp [number]
    rw [sanitizeEntry, valid, keep, kept]
    dsimp only [bind, Except.bind]
    rw [read]
    dsimp only
    rw [coerceLikeBounds_finite]
    exact ⟨rfl, fits⟩
  · right
    rw [sanitizeEntry, refused, keep, none]
    exact ⟨rfl, fits⟩

/-- Entries raise or are kept and dropped one by one. -/
theorem sanitizeAll_cases (entries clean : Dict String Value) :
    ((∀ entry ∈ entries, ¬Overflows entry) ∧ entries.foldlM (sanitizeEntry interpreter) clean =
        .ok (entries.foldl (keep interpreter) clean)) ∨
      ((∃ entry ∈ entries, Overflows entry) ∧
        entries.foldlM (sanitizeEntry interpreter) clean = .error .overflowError) := by
  induction entries generalizing clean with
  | nil => exact .inl ⟨by simp, rfl⟩
  | cons entry entries induction =>
      rw [List.foldlM_cons, List.foldl_cons, List.forall_mem_cons]
      rcases @sanitizeEntry_eq interpreter clean entry with
        ⟨raises, large⟩ | ⟨goesOn, fits⟩
      · rw [raises]
        exact .inr ⟨⟨entry, List.mem_cons_self, large⟩, rfl⟩
      · rw [goesOn]
        rcases induction (keep interpreter clean entry) with
          ⟨all, done⟩ | ⟨⟨other, listed, large⟩, raises⟩
        · exact .inl ⟨⟨fits, all⟩, done⟩
        · exact .inr ⟨⟨other, List.mem_cons_of_mem _ listed, large⟩, raises⟩

/-! ## What is promised -/

/-- The entry sets a parameter to a number within its bounds. -/
def Allowed (entry : String × Value) : Prop :=
  ∃ parameter x, Parameter.name parameter = entry.1 ∧ WithinBounds parameter x ∧
    (entry.2 = .float x ∨ ∃ number : ℤ, entry.2 = .int number ∧ x = number)

theorem bounds_of_whole {parameter : Parameter} (whole : parameter.whole = true) :
    ∃ lo hi : ℕ, paramBounds parameter = ((lo : ℚ), (hi : ℚ)) := by
  cases parameter with
  | stalePositionMaxAgeSeconds => exact ⟨1800, 259200, by norm_num [paramBounds]⟩
  | llmCallDelayMs => exact ⟨0, 2000, by norm_num [paramBounds]⟩
  | _ => exact absurd whole (by decide +kernel)

/-- Cutting a number off keeps it within whole bounds. -/
theorem within_cut {parameter : Parameter} (whole : parameter.whole = true) {x : ℚ}
    (within : WithinBounds parameter x) : WithinBounds parameter (x.num.tdiv x.den : ℤ) := by
  obtain ⟨lo, hi, bounds⟩ := bounds_of_whole whole
  rw [WithinBounds, bounds] at within
  have nonneg : 0 ≤ x.num := Rat.num_nonneg.mpr ((Nat.cast_nonneg lo).trans within.1)
  have cut : x.num.tdiv x.den = ⌊x⌋ := by
    rw [Int.tdiv_eq_ediv_of_nonneg nonneg, Rat.floor_def']
  have least : (lo : ℤ) ≤ ⌊x⌋ := Int.le_floor.mpr (by exact_mod_cast within.1)
  rw [WithinBounds, bounds, cut]
  dsimp only
  exact ⟨by exact_mod_cast least, (Int.floor_le x).trans within.2⟩

theorem allowed_coerced {parameter : Parameter} {x : ℚ} (within : WithinBounds parameter x) :
    Allowed (parameter.name, coerced parameter x) := by
  rw [coerced]
  by_cases whole : parameter.whole = true
  · exact ⟨parameter, _, rfl, within_cut whole within, .inr ⟨_, if_pos whole, rfl⟩⟩
  · exact ⟨parameter, x, rfl, within, .inl (if_neg whole)⟩

theorem within_of_numberFor {parameter : Parameter} {value : Value} {x : ℚ}
    (number : numberFor interpreter parameter value = some x) : WithinBounds parameter x := by
  have untrue : ∀ truth, value ≠ .bool truth := by
    rintro truth rfl
    cases number
  rw [numberFor_eq untrue] at number
  split at number
  · split_ifs at number with within
    rwa [← Option.some.inj number]
  · cases number

theorem allowed_keep {clean : Dict String Value} (allowed : ∀ entry ∈ clean, Allowed entry)
    (entry : String × Value) : ∀ kept ∈ keep interpreter clean entry, Allowed kept := by
  obtain ⟨key, value⟩ := entry
  rw [keep]
  cases kept : keptValue interpreter key value with
  | none => exact allowed
  | some held =>
      rw [keptValue, Option.bind_eq_some_iff] at kept
      obtain ⟨known, found, number⟩ := kept
      obtain ⟨x, numeric, rfl⟩ := Option.map_eq_some_iff.mp number
      intro other listed
      rcases Dict.mem_of_mem_set listed with rfl | earlier
      · rw [← Parameter.name_of_ofName found]
        exact allowed_coerced (within_of_numberFor numeric)
      · exact allowed other earlier

theorem allowed_sanitized (entries : Dict String Value) {clean : Dict String Value}
    (allowed : ∀ entry ∈ clean, Allowed entry) :
    ∀ entry ∈ entries.foldl (keep interpreter) clean, Allowed entry := by
  induction entries generalizing clean with
  | nil => exact allowed
  | cons entry entries induction => exact induction (allowed_keep allowed entry)

variable (interpreter)

/-- Loading does not raise, and what it loads is on the allowlist and within bounds. -/
def LoadsSafely (file : Cognitive.ConfigFile) : Prop :=
  ∃ overrides, loadOverrides interpreter file = .ok overrides ∧ ∀ entry ∈ overrides, Allowed entry

/-- An object sets no parameter to an integer that is too large for a float. -/
def Convertible : Value → Prop
  | .dict raw => ∀ entry ∈ raw, ¬Overflows entry
  | _ => True

/-- A file that is absent, or decodes and is no JSON, or decodes to a convertible value. -/
def Loadable : Cognitive.ConfigFile → Prop
  | .missing | .unreadable => True
  | .holds bytes => rawOverrides interpreter bytes = .error .jsonDecodeError ∨
      ∃ raw, rawOverrides interpreter bytes = .ok raw ∧ Convertible raw

variable {interpreter}

theorem sanitizeOverrides_iff (raw : Value) :
    (∃ overrides, sanitizeOverrides interpreter raw = .ok overrides ∧
      ∀ entry ∈ overrides, Allowed entry) ↔ Convertible raw := by
  cases raw with
  | dict entries =>
      rw [sanitizeOverrides, Convertible]
      rcases @sanitizeAll_cases interpreter entries [] with
        ⟨fits, done⟩ | ⟨⟨entry, listed, large⟩, raises⟩
      · rw [done]
        exact iff_of_true ⟨_, rfl, allowed_sanitized entries (by simp)⟩ fits
      · rw [raises]
        refine iff_of_false ?_ fun fits => fits entry listed large
        rintro ⟨_, done, -⟩
        cases done
  | _ => exact iff_of_true ⟨[], rfl, by simp⟩ trivial

variable (interpreter)

/-- The file breaks start-up exactly where it does not decode, or nests too deep, or has too long an
integer, or sets a parameter to an integer that is too large for a float. -/
theorem overridesLoad_iff (file : Cognitive.ConfigFile) :
    LoadsSafely interpreter file ↔ Loadable interpreter file := by
  have empty : ∀ entry ∈ ([] : Dict String Value), Allowed entry := by simp
  cases file with
  | missing => exact iff_of_true ⟨[], rfl, empty⟩ trivial
  | unreadable => exact iff_of_true ⟨[], rfl, empty⟩ trivial
  | holds bytes =>
      rw [LoadsSafely, Loadable, loadOverrides]
      cases read : rawOverrides interpreter bytes with
      | error raised =>
          by_cases decode : raised = .jsonDecodeError
          · subst decode
            exact iff_of_true ⟨[], rfl, empty⟩ (.inl rfl)
          · refine iff_of_false ?_ (by simp [decode])
            rintro ⟨overrides, loaded, -⟩
            cases raised <;> first | exact absurd rfl decode | cases loaded
      | ok raw =>
          rw [sanitizeOverrides_iff]
          simp

/-- A file that is no text. -/
def undecodable : ByteArray := ⟨#[0xff]⟩

theorem undecodable_breaks_startup :
    ¬∀ file, LoadsSafely Reference.decimalInterpreter file := by
  intro all
  have decoded : Cognitive.readText undecodable = .error .valueError := by decide +kernel
  have raises : loadOverrides Reference.decimalInterpreter (.holds undecodable) =
      .error .valueError := by
    rw [loadOverrides, rawOverrides, decoded]
    rfl
  obtain ⟨overrides, loaded, -⟩ := all (.holds undecodable)
  rw [raises] at loaded
  cases loaded

end ParamOverrides

end TradingControl
