import TradingControl.Parameters.ParamOverrides
import TradingControl.Python.JsonRead

/-!
# Applied overrides

A change is written into the text of the overrides and loaded from it later.  The writer and the
loader validate alike, but whether there is anything to change is asked of the JSON value that is
held, where a truth value equals a number.
-/

namespace TradingControl.ParamOverrides

open Python

variable (interpreter : Interpreter)

/-! ## The writer -/

/-- Why a change is refused. -/
inductive Refusal where
  | notSafe (error : String)
  | invalidJson (error : String)
  | notAnObject
  | unchanged

/-- The third component of what `apply_param_override` returns. -/
def Refusal.text : Refusal → String
  | .notSafe error => error
  | .invalidJson error => "invalid JSON: " ++ error
  | .notAnObject => "overrides file is not a JSON object"
  | .unchanged => "override already equals proposed value; no change needed"

inductive Application where
  | applied (newText : String)
  | refused (refusal : Refusal)

/-- `(ok, new_json_text, error)`. -/
def Application.toTriple : Application → Bool × Option String × Option String
  | .applied newText => (true, some newText, none)
  | .refused refusal => (false, none, some refusal.text)

def currentOverrides (rawText : String) : Except Raised Value :=
  if strip rawText = "" then .ok (.dict [])
  else Json.loads interpreter.toRuntime interpreter.depth rawText

/-- The text with one more entry. -/
def writeOverride (current : Dict String Value) (parameter : String) (newValue : Value) :
    Except Raised Application := do
  let text ← Json.dumps interpreter.toRuntime interpreter.depth { indent := some 2, sorted := true }
    (.dict (Dict.set parameter newValue current))
  return .applied (text ++ "\n")

/-- `apply_param_override`, with the texts of the decoding errors. -/
def applyParamOverride (decodeError : String → String) (rawText parameter : String)
    (proposed : Value) : Except Raised Application := do
  match ← validateParamChange interpreter parameter proposed with
  | some error => return .refused (.notSafe error)
  | none =>
      match currentOverrides interpreter rawText with
      | .error .jsonDecodeError => return .refused (.invalidJson (decodeError rawText))
      | .error raised => .error raised
      | .ok (.dict current) => do
          let numeric ← interpreter.float proposed
          let newValue ← coerceLikeBounds interpreter parameter numeric
          if Value.equal ((current.lookup parameter).getD .none) newValue then
            return .refused .unchanged
          else writeOverride interpreter current parameter newValue
      | .ok _ => return .refused .notAnObject

/-- `load_overrides` from the text of the file on. -/
def loadText (text : String) : Except Raised (Dict String Value) :=
  match Json.loads interpreter.toRuntime interpreter.depth text with
  | .error .jsonDecodeError => .ok []
  | .error raised => .error raised
  | .ok raw => sanitizeOverrides interpreter raw

/-! ## What is promised -/

/-- The proposal, coerced to its bounds. -/
def Coerces (parameter : String) (proposed value : Value) : Prop :=
  ∃ numeric, interpreter.float proposed = .ok numeric ∧
    coerceLikeBounds interpreter parameter numeric = .ok value

structure AppliedLoads (decodeError : String → String) (rawText parameter : String)
    (proposed : Value) : Prop where
  /-- The new text loads as the old one with the parameter set. -/
  applied : ∀ newText,
    applyParamOverride interpreter decodeError rawText parameter proposed =
      .ok (.applied newText) →
    ∃ value old new, Coerces interpreter parameter proposed value ∧ Allowed (parameter, value) ∧
      loadText interpreter rawText = .ok old ∧ loadText interpreter newText = .ok new ∧
      ∀ key, new.lookup key = if key = parameter then some value else old.lookup key
  /-- A change that is not needed has been made. -/
  unchanged :
    applyParamOverride interpreter decodeError rawText parameter proposed =
      .ok (.refused .unchanged) →
    ∃ value old, Coerces interpreter parameter proposed value ∧
      loadText interpreter rawText = .ok old ∧ old.lookup parameter = some value

/-- The change is valid and is compared with the object that the text holds. -/
structure Compared (rawText parameter : String) (proposed : Value) (known : Parameter) (x : ℚ)
    (current : Dict String Value) : Prop where
  named : known.name = parameter
  number : numberFor interpreter known proposed = some x
  held : currentOverrides interpreter rawText = .ok (.dict current)

/-- If the change is compared, the overrides hold no number that is too large for a float, and no
truth value that equals the new number of the parameter. -/
def Comparable (rawText parameter : String) (proposed : Value) : Prop :=
  ∀ known x current, Compared interpreter rawText parameter proposed known x current →
    (∀ entry ∈ current, ¬Overflows entry) ∧
      ∀ truth, current.lookup parameter = some (.bool truth) →
        Value.equal (.bool truth) (coerced known x) = false

variable {interpreter}

/-! ## Sanitized entries -/

theorem lookup_keep (clean : Dict String Value) (entry : String × Value) (key : String) :
    (keep interpreter clean entry).lookup key =
      if key = entry.1 then (keptValue interpreter entry.1 entry.2).or (clean.lookup key)
      else clean.lookup key := by
  rw [keep]
  cases keptValue interpreter entry.1 entry.2 with
  | none => simp
  | some value => simp [Dict.lookup_set]

/-- What is found among the sanitized entries is what is kept of the entry of the key. -/
theorem lookup_sanitized {entries : Dict String Value} (distinct : (Dict.keys entries).Nodup)
    (clean : Dict String Value) (key : String) :
    (entries.foldl (keep interpreter) clean).lookup key =
      ((entries.lookup key).bind (keptValue interpreter key)).or (clean.lookup key) := by
  induction entries generalizing clean with
  | nil => rfl
  | cons entry entries induction =>
      obtain ⟨held, value⟩ := entry
      obtain ⟨fresh, distinct⟩ := List.nodup_cons.mp distinct
      rw [List.foldl_cons, induction distinct, lookup_keep]
      by_cases same : key = held
      · subst same
        have absent : entries.lookup key = none := by
          cases found : entries.lookup key with
          | none => rfl
          | some other => exact absurd (Dict.mem_keys_of_mem (Dict.mem_of_lookup found)) fresh
        simp [absent]
      · simp [List.lookup_cons, beq_false_of_ne same, same]

theorem sanitizeOverrides_dict {entries : Dict String Value}
    (fits : ∀ entry ∈ entries, ¬Overflows entry) :
    sanitizeOverrides interpreter (.dict entries) =
      .ok (entries.foldl (keep interpreter) []) := by
  rcases @sanitizeAll_cases interpreter entries [] with ⟨-, done⟩ | ⟨⟨entry, listed, large⟩, -⟩
  · exact done
  · exact absurd large (fits entry listed)

theorem fits_of_sanitizes {entries clean : Dict String Value}
    (sanitized : sanitizeOverrides interpreter (.dict entries) = .ok clean) :
    ∀ entry ∈ entries, ¬Overflows entry := by
  rcases @sanitizeAll_cases interpreter entries [] with ⟨fits, -⟩ | ⟨-, raises⟩
  · exact fits
  · cases raises.symm.trans sanitized

/-- Sorting the keys inside a value changes no number. -/
theorem numberFor_sortKeys (parameter : Parameter) (depth : ℕ) (value : Value) :
    numberFor interpreter parameter (Json.sortKeys depth value) =
      numberFor interpreter parameter value := by
  cases depth with
  | zero => cases value <;> rfl
  | succ depth =>
      cases value with
      | list items => rfl
      | dict entries => rfl
      | _ => rfl

theorem keptValue_sortKeys (key : String) (depth : ℕ) (value : Value) :
    keptValue interpreter key (Json.sortKeys depth value) = keptValue interpreter key value := by
  simp only [keptValue, numberFor_sortKeys]

theorem overflows_sortKeys (key : String) (depth : ℕ) (value : Value) :
    Overflows (key, Json.sortKeys depth value) ↔ Overflows (key, value) := by
  refine and_congr_right fun _ => not_congr ?_
  cases depth with
  | zero => cases value <;> exact Iff.rfl
  | succ depth =>
      cases value with
      | list items => simp [Cognitive.Convertible, Json.sortKeys]
      | dict entries => simp [Cognitive.Convertible, Json.sortKeys]
      | _ => exact Iff.rfl

/-! ## The new value -/

theorem abs_le_of_within {parameter : Parameter} {number : ℤ}
    (within : WithinBounds parameter number) : |number| ≤ 259200 := by
  have range : 0 ≤ (paramBounds parameter).1 ∧ (paramBounds parameter).2 ≤ 259200 := by
    cases parameter <;> norm_num [paramBounds]
  have nonneg : 0 ≤ number := by exact_mod_cast range.1.trans within.1
  have most : number ≤ 259200 := by exact_mod_cast within.2.trans range.2
  rwa [abs_of_nonneg nonneg]

theorem lt_floatLimit_of_within {parameter : Parameter} {number : ℤ}
    (within : WithinBounds parameter number) : |number| < floatLimit :=
  have limit : 259200 < floatLimit := by decide +kernel
  (abs_le_of_within within).trans_lt limit

theorem numberFor_int {parameter : Parameter} {number : ℤ}
    (within : WithinBounds parameter number) :
    numberFor interpreter parameter (.int number) = some (number : ℚ) := by
  rw [numberFor_eq (by simp), Interpreter.float, if_pos (lt_floatLimit_of_within within)]
  exact if_pos within

theorem numberFor_float {parameter : Parameter} {x : ℚ} (within : WithinBounds parameter x) :
    numberFor interpreter parameter (.float x) = some x :=
  if_pos within

theorem coerced_int {parameter : Parameter} (whole : parameter.whole = true) (number : ℤ) :
    coerced parameter (number : ℚ) = .int number := by
  simp [coerced, whole]

theorem keptValue_coerced {parameter : Parameter} {x : ℚ} (within : WithinBounds parameter x) :
    keptValue interpreter parameter.name (coerced parameter x) = some (coerced parameter x) := by
  rw [keptValue, Parameter.ofName_eq_some_iff.mpr rfl, Option.bind_some]
  by_cases whole : parameter.whole = true
  · have cut : coerced parameter x = .int (x.num.tdiv x.den) := if_pos whole
    rw [cut, numberFor_int (within_cut whole within), Option.map_some, coerced_int whole]
  · have plain : coerced parameter x = .float x := if_neg whole
    rw [plain, numberFor_float within, Option.map_some, plain]

theorem not_overflows_coerced {parameter : Parameter} {x : ℚ} (within : WithinBounds parameter x) :
    ¬Overflows (parameter.name, coerced parameter x) := by
  rintro ⟨-, large⟩
  refine large fun number same => ?_
  by_cases whole : parameter.whole = true
  · have cut : coerced parameter x = .int (x.num.tdiv x.den) := if_pos whole
    simp only [cut, Option.some.injEq, Value.int.injEq] at same
    exact same ▸ lt_floatLimit_of_within (within_cut whole within)
  · have plain : coerced parameter x = .float x := if_neg whole
    simp [plain] at same

/-- A coerced number can be written. -/
theorem fits_coerced (levels : ℕ) {parameter : Parameter} {x : ℚ}
    (within : WithinBounds parameter x) : Json.Fits levels (coerced parameter x) := by
  by_cases whole : parameter.whole = true
  · have cut : coerced parameter x = .int (x.num.tdiv x.den) := if_pos whole
    have small := abs_le_of_within (within_cut whole within)
    have digits : (Nat.toDigits 10 (x.num.tdiv x.den).natAbs).length ≤ 6 := by
      have bounds := abs_le.mp small
      rw [Nat.length_toDigits_le_iff (by decide) (by decide)]
      omega
    rw [cut, Json.fits_int_iff]
    exact digits.trans (by decide)
  · have plain : coerced parameter x = .float x := if_neg whole
    rw [plain]
    exact Json.fits_of_scalar levels (by simp) (by simp) (by simp)

theorem keptValue_bool (key : String) (truth : Bool) :
    keptValue interpreter key (.bool truth) = none := by
  rw [keptValue]
  cases Parameter.ofName key <;> rfl

theorem number_of_equal {held value : Value}
    (number : (∃ n, value = .int n) ∨ ∃ x, value = .float x)
    (equal : Value.equal held value = true) : held.number? = value.number? := by
  obtain ⟨n, rfl⟩ | ⟨x, rfl⟩ := number <;> cases held <;>
    simp_all [Value.equal, Value.number?]

theorem not_equal_none (parameter : Parameter) (x : ℚ) :
    ¬Value.equal .none (coerced parameter x) = true := by
  rw [coerced]
  split_ifs <;> simp [Value.equal, Value.number?]

theorem keptValue_of_equal {parameter : Parameter} {x : ℚ} (within : WithinBounds parameter x)
    {held : Value} (untrue : ∀ truth, held ≠ .bool truth)
    (equal : Value.equal held (coerced parameter x) = true) :
    keptValue interpreter parameter.name held = some (coerced parameter x) := by
  obtain ⟨y, inside, same, numbers⟩ : ∃ y, WithinBounds parameter y ∧
      coerced parameter y = coerced parameter x ∧ held.number? = some y := by
    by_cases whole : parameter.whole = true
    · have cut : coerced parameter x = .int (x.num.tdiv x.den) := if_pos whole
      rw [cut] at equal ⊢
      refine ⟨_, within_cut whole within, coerced_int whole _, ?_⟩
      exact number_of_equal (.inl ⟨_, rfl⟩) equal
    · have plain : coerced parameter x = .float x := if_neg whole
      rw [plain] at equal ⊢
      exact ⟨x, within, plain, number_of_equal (.inr ⟨x, rfl⟩) equal⟩
  have number : numberFor interpreter parameter held = some y := by
    cases held with
    | bool truth => exact absurd rfl (untrue truth)
    | int number =>
        obtain rfl := Option.some.inj numbers
        exact numberFor_int inside
    | float number =>
        obtain rfl := Option.some.inj numbers
        exact numberFor_float inside
    | _ => cases numbers
  rw [keptValue, Parameter.ofName_eq_some_iff.mpr rfl, Option.bind_some, number, Option.map_some,
    same]

/-! ## The texts -/

/-- An override text that is blank is no JSON, and is loaded as the empty object. -/
theorem loadText_of_currentOverrides {text : String} {current : Dict String Value}
    (held : currentOverrides interpreter text = .ok (.dict current)) :
    loadText interpreter text = sanitizeOverrides interpreter (.dict current) := by
  rw [currentOverrides] at held
  split_ifs at held with blank
  · cases held
    rw [loadText, Cognitive.loads_whitespace (Cognitive.isWhitespace_of_strip blank)]
    rfl
  · rw [loadText, held]

theorem validate_of_numberFor {known : Parameter} {proposed : Value} {x : ℚ}
    (number : numberFor interpreter known proposed = some x) :
    validateParamChange interpreter known.name proposed = .ok none ∧
      interpreter.float proposed = .ok (.finite x) := by
  have untrue : ∀ truth, proposed ≠ .bool truth := by
    rintro truth rfl
    cases number
  rcases @validateParamChange_cases interpreter known.name proposed with
    ⟨-, -, large⟩ | ⟨-, valid, other, y, named, read, again⟩ | ⟨-, -, dropped⟩
  · rw [numberFor_eq untrue, (float_overflows_iff proposed).mpr large] at number
    cases number
  · obtain rfl := Parameter.name_injective named
    rw [number] at again
    obtain rfl := Option.some.inj again
    exact ⟨valid, read⟩
  · rw [keptValue, Parameter.ofName_eq_some_iff.mpr rfl, Option.bind_some, number] at dropped
    cases dropped

theorem applyParamOverride_compared (decodeError : String → String) {rawText parameter : String}
    {proposed : Value} {known : Parameter} {x : ℚ} {current : Dict String Value}
    (compared : Compared interpreter rawText parameter proposed known x current) :
    applyParamOverride interpreter decodeError rawText parameter proposed =
      if Value.equal ((current.lookup parameter).getD .none) (coerced known x) then
        .ok (.refused .unchanged)
      else writeOverride interpreter current parameter (coerced known x) := by
  obtain ⟨rfl, number, held⟩ := compared
  obtain ⟨valid, read⟩ := validate_of_numberFor number
  rw [applyParamOverride, valid]
  dsimp only [bind, Except.bind]
  rw [held]
  dsimp only
  rw [read]
  dsimp only
  rw [coerceLikeBounds_finite]
  rfl

/-- Only a valid change of an object is compared with what is held. -/
theorem compared_of_apply {decodeError : String → String} {rawText parameter : String}
    {proposed : Value} {application : Application}
    (done : applyParamOverride interpreter decodeError rawText parameter proposed =
      .ok application)
    (past : application = .refused .unchanged ∨ ∃ newText, application = .applied newText) :
    ∃ known x current, Compared interpreter rawText parameter proposed known x current := by
  rcases @validateParamChange_cases interpreter parameter proposed with
    ⟨raises, -⟩ | ⟨-, valid, known, x, named, read, number⟩ | ⟨-, ⟨error, refused⟩, -⟩
  · rw [applyParamOverride, raises] at done
    cases done
  · rw [applyParamOverride, valid] at done
    dsimp only [bind, Except.bind] at done
    cases held : currentOverrides interpreter rawText with
    | error raised =>
        rw [held] at done
        cases raised <;> cases done
        rcases past with past | ⟨newText, past⟩ <;> cases past
    | ok current =>
        cases current with
        | dict current => exact ⟨known, x, current, named, number, held⟩
        | _ =>
            rw [held] at done
            cases done
            rcases past with past | ⟨newText, past⟩ <;> cases past
  · rw [applyParamOverride, refused] at done
    cases done
    rcases past with past | ⟨newText, past⟩ <;> cases past

/-! ## The new text -/

/-- What is loaded from the text of an object, key by key. -/
theorem lookup_loaded {entries : Dict String Value} (distinct : (Dict.keys entries).Nodup)
    (fits : ∀ entry ∈ entries, ¬Overflows entry) :
    ∃ loaded, sanitizeOverrides interpreter (.dict entries) = .ok loaded ∧
      ∀ key, loaded.lookup key = (entries.lookup key).bind (keptValue interpreter key) := by
  refine ⟨_, sanitizeOverrides_dict fits, fun key => ?_⟩
  rw [lookup_sanitized distinct]
  exact Option.or_none

/-- A text that is written holds the object with the new entry, and its keys sorted. -/
theorem loads_written {current : Dict String Value} {parameter newText : String} {newValue : Value}
    (faithful : Json.Faithful interpreter.toRuntime (.dict (Dict.set parameter newValue current)))
    (written : writeOverride interpreter current parameter newValue = .ok (.applied newText)) :
    ∃ levels, Json.loads interpreter.toRuntime interpreter.depth newText =
      .ok (.dict (Json.sortedEntries levels (Dict.set parameter newValue current))) := by
  rw [writeOverride] at written
  obtain ⟨text, dumped, written⟩ := bind_eq_ok.mp written
  cases written
  have fits := (Json.dumps_isOk_iff interpreter.toRuntime interpreter.depth
    { indent := some 2, sorted := true } (.dict (Dict.set parameter newValue current))).mp
      (by rw [dumped]; rfl)
  have blank : "\n".toList.all Json.isSpace = true := by decide +kernel
  have loaded := Json.loads_dumps dumped faithful (List.all_eq_true.mp blank)
  cases depth : interpreter.depth with
  | zero =>
      rw [depth] at fits
      exact fits.elim
  | succ levels =>
      rw [depth, if_pos rfl, Json.sortKeys_dict] at loaded
      exact ⟨levels, loaded⟩

theorem lookup_written {current : Dict String Value} {known : Parameter} {x : ℚ}
    (distinct : (Dict.keys current).Nodup) (fits : ∀ entry ∈ current, ¬Overflows entry)
    (within : WithinBounds known x) (levels : ℕ) :
    ∃ loaded, sanitizeOverrides interpreter
        (.dict (Json.sortedEntries levels (Dict.set known.name (coerced known x) current))) =
          .ok loaded ∧
      ∀ key, loaded.lookup key =
        if key = known.name then some (coerced known x)
        else (current.lookup key).bind (keptValue interpreter key) := by
  have apart := Dict.nodup_set known.name (coerced known x) distinct
  obtain ⟨loaded, sanitized, found⟩ := @lookup_loaded interpreter
    (Json.sortedEntries levels (Dict.set known.name (coerced known x) current))
    (Json.keys_byKey (by rwa [Json.keys_map])) fun entry member => by
      obtain ⟨⟨key, value⟩, listed, rfl⟩ :=
        List.mem_map.mp ((Json.byKey_perm _).mem_iff.mp member)
      rw [overflows_sortKeys]
      rcases Dict.mem_of_mem_set listed with same | earlier
      · exact same ▸ not_overflows_coerced within
      · exact fits _ earlier
  refine ⟨loaded, sanitized, fun key => ?_⟩
  rw [found, Json.lookup_sortedEntries levels apart, Dict.lookup_set]
  split_ifs with same
  · rw [same, Option.map_some, Option.bind_some, keptValue_sortKeys, keptValue_coerced within]
  · cases current.lookup key with
    | none => rfl
    | some value => exact keptValue_sortKeys key levels value

/-! ## The law -/

section

variable {rawText parameter : String} {proposed : Value} {known : Parameter} {x : ℚ}
  {current : Dict String Value}

variable (prints : ∀ text x, interpreter.parseFloat text = some x →
  Json.FloatText interpreter.toRuntime x)

include prints

/-- The overrides of a text have distinct keys and can be written again. -/
theorem currentOverrides_spec {text : String} {current : Dict String Value}
    (held : currentOverrides interpreter text = .ok (.dict current)) :
    (current = [] ∨ Json.Fits interpreter.depth (.dict current)) ∧
      Json.Faithful interpreter.toRuntime (.dict current) := by
  rw [currentOverrides] at held
  split_ifs at held with blank
  · cases held
    exact ⟨.inl rfl, .dict [] (by simp [Dict.keys]) (by simp)⟩
  · have spec := Json.loads_spec prints held
    exact ⟨.inr spec.1, spec.2⟩

theorem distinct_current (held : currentOverrides interpreter rawText = .ok (.dict current)) :
    (Dict.keys current).Nodup := by
  cases (currentOverrides_spec prints held).2 with
  | dict _ distinct _ => exact distinct

/-- An object can be written with the new entry, unless it is empty and nothing can be nested. -/
theorem written_or_nil
    (compared : Compared interpreter rawText parameter proposed known x current) :
    current = [] ∨ ∃ newText, writeOverride interpreter current parameter (coerced known x) =
      .ok (.applied newText) := by
  refine (currentOverrides_spec prints compared.held).1.imp_right fun fits => ?_
  have writable : Json.Fits interpreter.depth
      (.dict (Dict.set parameter (coerced known x) current)) := by
    cases depth : interpreter.depth with
    | zero =>
        rw [depth] at fits
        exact fits.elim
    | succ levels =>
        rw [depth] at fits
        intro entry member
        rcases Dict.mem_of_mem_set member with rfl | earlier
        · exact fits_coerced levels (within_of_numberFor compared.number)
        · exact fits entry earlier
  have dumped := (Json.dumps_isOk_iff interpreter.toRuntime interpreter.depth
    { indent := some 2, sorted := true } _).mpr writable
  rw [writeOverride]
  cases text : Json.dumps interpreter.toRuntime interpreter.depth
    { indent := some 2, sorted := true } (.dict (Dict.set parameter (coerced known x) current)) with
  | error raised =>
      rw [text] at dumped
      cases dumped
  | ok text => exact ⟨_, rfl⟩

variable (newPrints : ∀ x, interpreter.float proposed = .ok (.finite x) →
  Json.FloatText interpreter.toRuntime x)

include newPrints

/-- The object with the new entry can be read back. -/
theorem faithful_set (compared : Compared interpreter rawText parameter proposed known x current) :
    Json.Faithful interpreter.toRuntime
      (.dict (Dict.set parameter (coerced known x) current)) := by
  obtain ⟨-, faithful⟩ := currentOverrides_spec prints compared.held
  cases faithful with
  | dict _ distinct all =>
      refine .dict _ (Dict.nodup_set _ _ distinct) fun entry member => ?_
      rcases Dict.mem_of_mem_set member with rfl | earlier
      · rw [coerced]
        split_ifs
        · exact .int _
        · exact .float x (newPrints x (validate_of_numberFor compared.number).2)
      · exact all entry earlier

theorem applied_loads (compared : Compared interpreter rawText parameter proposed known x current)
    (fits : ∀ entry ∈ current, ¬Overflows entry) {newText : String}
    (written : writeOverride interpreter current parameter (coerced known x) =
      .ok (.applied newText)) :
    ∃ old new, loadText interpreter rawText = .ok old ∧ loadText interpreter newText = .ok new ∧
      ∀ key, new.lookup key =
        if key = parameter then some (coerced known x) else old.lookup key := by
  have distinct := distinct_current prints compared.held
  obtain ⟨levels, loaded⟩ :=
    loads_written (faithful_set prints newPrints compared) written
  obtain ⟨rfl, number, held⟩ := compared
  obtain ⟨new, sanitized, found⟩ :=
    @lookup_written interpreter _ known x distinct fits (within_of_numberFor number) levels
  obtain ⟨old, before, kept⟩ := @lookup_loaded interpreter _ distinct fits
  refine ⟨old, new, (loadText_of_currentOverrides held).trans before, ?_, fun key => ?_⟩
  · rw [loadText, loaded]
    exact sanitized
  · rw [found, kept]

/-- An applied override is the one that loads exactly where it can be compared. -/
theorem appliedLoads_iff (decodeError : String → String) :
    AppliedLoads interpreter decodeError rawText parameter proposed ↔
      Comparable interpreter rawText parameter proposed := by
  constructor
  · intro law known x current compared
    have outcome := applyParamOverride_compared decodeError compared
    have loads := loadText_of_currentOverrides compared.held
    by_cases equal :
        Value.equal ((current.lookup parameter).getD .none) (coerced known x) = true
    · rw [if_pos equal] at outcome
      obtain ⟨value, old, -, loaded, found⟩ := law.unchanged outcome
      rw [loads] at loaded
      have fits := fits_of_sanitizes loaded
      refine ⟨fits, fun truth held => ?_⟩
      obtain ⟨kept, sanitized, lookups⟩ := @lookup_loaded interpreter _
        (distinct_current prints compared.held) fits
      obtain rfl := Except.ok.inj (loaded.symm.trans sanitized)
      rw [lookups, held, Option.bind_some, keptValue_bool] at found
      cases found
    · rw [if_neg equal] at outcome
      refine ⟨?_, fun truth held => ?_⟩
      · rcases written_or_nil prints compared with rfl | ⟨newText, written⟩
        · simp
        · obtain ⟨value, old, new, -, -, loaded, -⟩ := law.applied newText (outcome.trans written)
          rw [loads] at loaded
          exact fits_of_sanitizes loaded
      · rw [held] at equal
        exact Bool.eq_false_iff.mpr equal
  · intro comparable
    constructor
    · intro newText applied
      obtain ⟨known, x, current, compared⟩ := compared_of_apply applied (.inr ⟨newText, rfl⟩)
      rw [applyParamOverride_compared decodeError compared] at applied
      split_ifs at applied
      · cases applied
      obtain ⟨old, new, before, after, found⟩ := applied_loads prints newPrints compared
        (comparable known x current compared).1 applied
      obtain ⟨rfl, number, held⟩ := compared
      exact ⟨coerced known x, old, new,
        ⟨.finite x, (validate_of_numberFor number).2, coerceLikeBounds_finite known x⟩,
        allowed_coerced (within_of_numberFor number), before, after, found⟩
    · intro unchanged
      obtain ⟨known, x, current, compared⟩ := compared_of_apply unchanged (.inl rfl)
      have law := comparable known x current compared
      rw [applyParamOverride_compared decodeError compared] at unchanged
      split_ifs at unchanged with equal
      · obtain ⟨old, before, found⟩ := @lookup_loaded interpreter _
          (distinct_current prints compared.held) law.1
        obtain ⟨rfl, number, held⟩ := compared
        have within := within_of_numberFor number
        refine ⟨coerced known x, old,
          ⟨.finite x, (validate_of_numberFor number).2, coerceLikeBounds_finite known x⟩,
          (loadText_of_currentOverrides held).trans before, ?_⟩
        rw [found]
        cases entry : current.lookup known.name with
        | none =>
            rw [entry] at equal
            exact absurd equal (not_equal_none known x)
        | some value =>
            rw [entry] at equal
            refine keptValue_of_equal within (fun truth same => ?_) equal
            subst same
            exact Bool.false_ne_true ((law.2 truth entry).symm.trans equal)
      · rw [writeOverride] at unchanged
        obtain ⟨text, -, unchanged⟩ := bind_eq_ok.mp unchanged
        cases unchanged

end

/-- An interpreter that finds one float in texts. -/
def halfInterpreter : Interpreter :=
  { Reference.decimalInterpreter with
    parseFloat := fun text => if text = "0.5" then some (1 / 2) else none }

/-- A truth value stands where a delay belongs. -/
def delayTrue : String := "\x7b\"LLM_CALL_DELAY_MS\": true\x7d"

theorem currentOverrides_delayTrue : currentOverrides halfInterpreter delayTrue =
    .ok (.dict [("LLM_CALL_DELAY_MS", .bool true)]) := by
  have faithful : Json.Faithful halfInterpreter.toRuntime
      (.dict [("LLM_CALL_DELAY_MS", .bool true)]) :=
    .dict _ (by simp [Dict.keys]) (by simp [Json.Faithful.bool])
  have name : Json.encodeText "LLM_CALL_DELAY_MS" = "\"LLM_CALL_DELAY_MS\"".toList := by
    decide +kernel
  have joined : delayTrue.toList =
      '\x7b' :: ("\"LLM_CALL_DELAY_MS\"".toList ++ [':', ' '] ++ "true".toList) ++ ['\x7d'] := by
    decide +kernel
  have written : Json.encode halfInterpreter.toRuntime none (898 + 1 + 1) 0
      (.dict [("LLM_CALL_DELAY_MS", .bool true)]) = .ok delayTrue.toList := by
    rw [joined, ← name]
    simp [Json.encode, Json.encodeEntry, Json.enclosed, Json.lineBreak, bind, Except.bind, pure,
      Except.pure]
  have loaded := @Json.loads_append _ none _ _ _ written faithful [] (by simp)
  rw [List.append_nil, String.ofList_toList] at loaded
  rw [currentOverrides, if_neg (by decide +kernel)]
  exact loaded

theorem half_applies :
    AppliedLoads halfInterpreter id delayTrue "KELLY_FRACTION_SCALE" (.float (1 / 2)) := by
  have half : Json.FloatText halfInterpreter.toRuntime (1 / 2) := by decide +kernel
  refine (appliedLoads_iff (fun text x parsed => ?_) (fun x read => ?_) id).mpr ?_
  · have found : text = "0.5" ∧ 1 / 2 = x := by simpa [halfInterpreter] using parsed
    exact found.2 ▸ half
  · cases read
    exact half
  · rintro known x current ⟨-, -, held⟩
    rw [currentOverrides_delayTrue] at held
    cases held
    refine ⟨by simp [Overflows, Cognitive.Convertible], fun truth found => ?_⟩
    simp [List.lookup_cons] at found

/-- A truth value equals the number one, and is dropped where the overrides are loaded. -/
theorem delayTrue_unchanged : ¬∀ rawText parameter proposed,
    AppliedLoads halfInterpreter id rawText parameter proposed := by
  intro all
  have number : numberFor halfInterpreter .llmCallDelayMs (.int 1) = some 1 :=
    @numberFor_int halfInterpreter .llmCallDelayMs 1 (by decide +kernel)
  have compared : Compared halfInterpreter delayTrue "LLM_CALL_DELAY_MS" (.int 1) .llmCallDelayMs 1
      [("LLM_CALL_DELAY_MS", .bool true)] := ⟨rfl, number, currentOverrides_delayTrue⟩
  have equal : Value.equal (.bool true) (coerced .llmCallDelayMs 1) = true := by decide +kernel
  obtain ⟨value, old, -, loaded, found⟩ :=
    (all delayTrue "LLM_CALL_DELAY_MS" (.int 1)).unchanged
      ((applyParamOverride_compared id compared).trans (if_pos equal))
  rw [loadText_of_currentOverrides currentOverrides_delayTrue] at loaded
  cases loaded
  cases found

end TradingControl.ParamOverrides
