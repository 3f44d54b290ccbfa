import TradingControl.Python.Reference
import TradingControl.Reasoning.DecisionPolicy

/-!
# Malformed inputs of the policy

`decide_policy` converts its numeric fields with `float(… or 0.0)` and asks two sections of the
context for an entry, with no check of either.  A field that is no number is thus refused with an
exception, read as the number in its text, or replaced by zero, and only then may the blend of the
other features still hold.
-/

namespace TradingControl.Reasoning

open Python

/-! ## Fields -/

/-- An integer or a float, truth values included. -/
def isNumeric : Value → Bool
  | .bool _ | .int _ | .float _ | .nonFinite _ => true
  | _ => false

/-- `float(value or 0.0)` returns. -/
def converts (interpreter : Interpreter) : Value → Bool
  | .int value => |value| < floatLimit
  | .str text => text = "" || (interpreter.parseNumber text).isSome
  | .list items => items.isEmpty
  | .dict entries => entries.isEmpty
  | _ => true

/-- `value or {}` is a dictionary. -/
def isSection : Value → Bool
  | .dict _ => true
  | value => !value.truthy

def entriesAt (context : Payload) (key : String) : Payload :=
  match context.lookup key with
  | some (.dict entries) => entries
  | _ => []

/-- The number that stands for a field which converts. -/
def amount (interpreter : Interpreter) (field : Option Value) : Number :=
  match interpreter.floatOr field 0 with
  | .ok number => number
  | .error _ => .finite 0

def directionText (interpreter : Interpreter) (data : Payload) : String :=
  lower (interpreter.str (Value.orElse (data.lookup "direction")
    (Value.orElse (data.lookup "signal") (Value.orElse (data.lookup "action") (.str "")))))

def namedDirection (text : String) : Option ℚ :=
  if text ∈ ["bullish", "buy", "long"] then some 1
  else if text ∈ ["bearish", "sell", "short"] then some (-1)
  else none

/-- The numeric fields that are read; the move of the bar is one of them where no direction is
named. -/
def numericFields (interpreter : Interpreter) (data context : Payload) : List (Option Value) :=
  [(entriesAt context "news_sentiment").lookup "sentiment",
    (entriesAt context "order_book").lookup "imbalance", data.lookup "composite_score"] ++
  if namedDirection (directionText interpreter data) = none then [data.lookup "pct"] else []

/-- Every numeric field that is read converts, and the sections are dictionaries. -/
structure Readable (interpreter : Interpreter) (data context : Payload) : Prop where
  fields : ∀ value, some value ∈ numericFields interpreter data context →
    converts interpreter value = true
  sections : ∀ key ∈ ["news_sentiment", "macro_regime", "order_book"], ∀ value,
    context.lookup key = some value → isSection value = true

/-- Every numeric field that is read is a number or missing. -/
def AllNumeric (interpreter : Interpreter) (data context : Payload) : Prop :=
  ∀ value, some value ∈ numericFields interpreter data context → isNumeric value = true

/-- The policy decides, and holds where a numeric field that it reads is not numeric. -/
def DegradesToHold (interpreter : Interpreter) (params : PolicyParams) (data context : Payload) :
    Prop :=
  ∃ decision, decidePolicy interpreter data context params = .ok decision ∧
    (¬ AllNumeric interpreter data context → decision.lookup "action" = some (.str "hold"))

/-! ## Features -/

/-- What the fields contribute, each with zero where it holds nothing. -/
structure Features where
  momentum : ℚ
  sentiment : ℚ
  macroBias : ℚ
  imbalance : ℚ
  confidence : ℚ

/-- The direction of the bar. -/
def moveSign (pct : Number) : ℚ :=
  if Number.lt (.finite 0) pct then 1 else if pct.lt (.finite 0) then -1 else 0

def regimeSign (interpreter : Interpreter) (macroRegime : Payload) : ℚ :=
  let regime := lower (interpreter.str (Value.orElse (macroRegime.lookup "regime") (.str "")))
  if regime = "risk_on" then 1 else if regime = "risk_off" then -1 else 0

def features (interpreter : Interpreter) (data context : Payload) : Features where
  momentum := (namedDirection (directionText interpreter data)).getD
    (moveSign (amount interpreter (data.lookup "pct")))
  sentiment := clamp
    (amount interpreter ((entriesAt context "news_sentiment").lookup "sentiment")) (-1) 1
  macroBias := regimeSign interpreter (entriesAt context "macro_regime")
  imbalance := clamp
    (amount interpreter ((entriesAt context "order_book").lookup "imbalance")) (-1) 1
  confidence := clamp (amount interpreter (data.lookup "composite_score")) 0 1

namespace Features

variable (features : Features) (params : PolicyParams)

/-- The weighted blend. -/
def score : ℚ :=
  roundHalfEven 4 (clamp (.finite (params.wMomentum * features.momentum +
    params.wSentiment * features.sentiment + params.wMacro * features.macroBias +
    params.wImbalance * features.imbalance + params.directionalBias)) (-1) 1)

/-- Conviction suffices, and the blend is past the cut of a sale or of a purchase that its floor
lets through. -/
def Acts (regime : Option Value) : Prop :=
  let buyCut := RegimeRisk.buyThreshold regime params.buyThreshold features.momentum
  params.minConfidence ≤ features.confidence ∧
    if buyCut ≤ features.score params then
      RegimeRisk.minConfidence regime params.minConfidence true ≤ features.confidence
    else features.score params ≤ -params.sellThreshold

/-- The share of the capital that the conviction calls for. -/
def sizePct : ℚ :=
  roundHalfEven 4 (clamp (.finite (params.baseSizePct * features.confidence)) (5 / 1000)
    params.baseSizePct)

end Features

def tiltRegime (context : Payload) : Option Value :=
  RegimeRisk.regimeOf ((context.lookup "macro_regime").getD .none)

/-! ## One field -/

variable {interpreter : Interpreter} {params : PolicyParams} {data context : Payload}

theorem floatOr_of_truthy {value : Value} (truthy : value.truthy = true) :
    interpreter.floatOr (some value) 0 = interpreter.float value := by
  rw [Interpreter.floatOr, Value.orElse, if_pos truthy]

theorem floatOr_of_falsy {value : Value} (falsy : value.truthy = false) :
    interpreter.floatOr (some value) 0 = .ok (.finite 0) := by
  rw [Interpreter.floatOr, Value.orElse, if_neg (by simp [falsy]), Interpreter.float]

theorem converts_of_falsy {value : Value} (falsy : value.truthy = false) :
    converts interpreter value = true := by
  cases value with
  | none | bool _ | float _ | nonFinite _ => rfl
  | int value =>
      have zero : value = 0 := by simpa [Value.truthy] using falsy
      have positive : 0 < floatLimit := by decide +kernel
      simp [converts, zero, positive]
  | str text =>
      have empty : text = "" := by simpa [Value.truthy] using falsy
      simp [converts, empty]
  | list items => simpa [converts, Value.truthy] using falsy
  | dict entries => simpa [converts, Value.truthy] using falsy

theorem converts_iff_float {value : Value} (truthy : value.truthy = true) :
    converts interpreter value = true ↔ ∃ number, interpreter.float value = .ok number := by
  cases value with
  | none => cases truthy
  | bool value => simp [converts, Interpreter.float]
  | float value => simp [converts, Interpreter.float]
  | nonFinite value => simp [converts, Interpreter.float]
  | int value => by_cases small : |value| < floatLimit <;> simp [converts, Interpreter.float, small]
  | str text =>
      have filled : text ≠ "" := by simpa [Value.truthy] using truthy
      cases parsed : interpreter.parseNumber text <;>
        simp [converts, Interpreter.float, filled, parsed]
  | list items => simpa [converts, Interpreter.float, Value.truthy] using truthy
  | dict entries => simpa [converts, Interpreter.float, Value.truthy] using truthy

theorem floatOr_eq_ok {field : Option Value} {number : Number} :
    interpreter.floatOr field 0 = .ok number ↔
      (∀ value, field = some value → converts interpreter value = true) ∧
        amount interpreter field = number := by
  have stands : ∀ read, interpreter.floatOr field 0 = .ok read → amount interpreter field = read := by
    intro read returned
    rw [amount, returned]
  constructor
  · intro returned
    refine ⟨?_, stands number returned⟩
    rintro value rfl
    cases truthy : value.truthy with
    | false => exact converts_of_falsy truthy
    | true => exact (converts_iff_float truthy).mpr ⟨number, floatOr_of_truthy truthy ▸ returned⟩
  · rintro ⟨conversion, rfl⟩
    have returns : ∃ read, interpreter.floatOr field 0 = .ok read := by
      cases field with
      | none => exact ⟨.finite 0, rfl⟩
      | some value =>
          cases truthy : value.truthy with
          | false => exact ⟨.finite 0, floatOr_of_falsy truthy⟩
          | true =>
              rw [floatOr_of_truthy truthy]
              exact (converts_iff_float truthy).mp (conversion value rfl)
    obtain ⟨read, returned⟩ := returns
    rw [returned, stands read returned]

theorem isSection_of_falsy {value : Value} (falsy : value.truthy = false) :
    isSection value = true := by
  cases value with
  | dict entries => rfl
  | _ => simp [isSection, falsy]

theorem entries_of_isSection {value : Value} (truthy : value.truthy = true) :
    isSection value = true ↔ ∃ entries, value = .dict entries := by
  cases value with
  | dict entries => simp [isSection]
  | _ => simp [isSection, truthy]

/-- A section gives its entries if and only if it is a dictionary or empty. -/
theorem entries_eq_ok {key : String} {entries : Payload} :
    (Value.orElse (context.lookup key) (.dict [])).entries = .ok entries ↔
      (∀ value, context.lookup key = some value → isSection value = true) ∧
        entriesAt context key = entries := by
  rw [entriesAt]
  cases context.lookup key with
  | none => simp [Value.orElse, Value.entries]
  | some value =>
      cases truthy : value.truthy with
      | false =>
          have holds_none :
              (match some value with | some (.dict held) => held | _ => []) = [] := by
            cases value with
            | dict held => simpa [Value.truthy] using truthy
            | _ => rfl
          rw [holds_none]
          simp [Value.orElse, truthy, Value.entries, isSection_of_falsy truthy]
      | true =>
          simp only [Value.orElse, truthy, if_true, Option.some.injEq, forall_eq',
            entries_of_isSection truthy]
          cases value <;> simp [Value.entries]

/-! ## Each feature -/

theorem feature_eq_ok {key field : String} {value : ℚ} :
    feature interpreter context key field = .ok value ↔
      (∀ held, context.lookup key = some held → isSection held = true) ∧
        (∀ held, (entriesAt context key).lookup field = some held →
          converts interpreter held = true) ∧
        clamp (amount interpreter ((entriesAt context key).lookup field)) (-1) 1 = value := by
  rw [feature, bind_eq_ok]
  constructor
  · rintro ⟨entries, held, read⟩
    obtain ⟨number, returned, read⟩ := bind_eq_ok.mp read
    obtain ⟨sectioned, rfl⟩ := entries_eq_ok.mp held
    obtain ⟨conversion, rfl⟩ := floatOr_eq_ok.mp returned
    exact ⟨sectioned, conversion, Except.ok.inj read⟩
  · rintro ⟨sectioned, conversion, rfl⟩
    refine ⟨_, entries_eq_ok.mpr ⟨sectioned, rfl⟩, ?_⟩
    exact bind_eq_ok.mpr ⟨_, floatOr_eq_ok.mpr ⟨conversion, rfl⟩, rfl⟩

theorem macroSign_eq_ok {value : ℚ} :
    macroSign interpreter context = .ok value ↔
      (∀ held, context.lookup "macro_regime" = some held → isSection held = true) ∧
        regimeSign interpreter (entriesAt context "macro_regime") = value := by
  rw [macroSign, bind_eq_ok]
  constructor
  · rintro ⟨entries, held, read⟩
    obtain ⟨sectioned, rfl⟩ := entries_eq_ok.mp held
    exact ⟨sectioned, Except.ok.inj read⟩
  · rintro ⟨sectioned, rfl⟩
    exact ⟨_, entries_eq_ok.mpr ⟨sectioned, rfl⟩, rfl⟩

def moveLabel (interpreter : Interpreter) (pct : Number) : String :=
  if moveSign pct = 0 then "flat" else "pct " ++ interpreter.signedNumber pct ++ "%"

theorem directionSign_eq :
    directionSign interpreter data =
      match namedDirection (directionText interpreter data) with
      | some direction => .ok (direction, directionText interpreter data)
      | none => do
          let pct ← interpreter.floatOr (data.lookup "pct") 0
          return (moveSign pct, moveLabel interpreter pct) := by
  have unfolded : directionSign interpreter data =
      if directionText interpreter data ∈ ["bullish", "buy", "long"] then
        .ok (1, directionText interpreter data)
      else if directionText interpreter data ∈ ["bearish", "sell", "short"] then
        .ok (-1, directionText interpreter data)
      else do
        let pct ← interpreter.floatOr (data.lookup "pct") 0
        if Number.lt (.finite 0) pct then
          return (1, "pct " ++ interpreter.signedNumber pct ++ "%")
        else if pct.lt (.finite 0) then
          return (-1, "pct " ++ interpreter.signedNumber pct ++ "%")
        else return (0, "flat") := rfl
  rw [unfolded, namedDirection]
  by_cases long : directionText interpreter data ∈ ["bullish", "buy", "long"]
  · rw [if_pos long, if_pos long]
  · by_cases short : directionText interpreter data ∈ ["bearish", "sell", "short"]
    · rw [if_neg long, if_pos short, if_neg long, if_pos short]
    · rw [if_neg long, if_neg short, if_neg long, if_neg short]
      refine bind_congr fun pct => ?_
      rw [moveLabel, moveSign]
      by_cases rises : Number.lt (.finite 0) pct = true
      · simp [rises]
      · by_cases falls : pct.lt (.finite 0) = true <;> simp [rises, falls]

theorem directionSign_eq_ok {momentum : ℚ} :
    (∃ label, directionSign interpreter data = .ok (momentum, label)) ↔
      (namedDirection (directionText interpreter data) = none →
        ∀ held, data.lookup "pct" = some held → converts interpreter held = true) ∧
      (namedDirection (directionText interpreter data)).getD
        (moveSign (amount interpreter (data.lookup "pct"))) = momentum := by
  rw [directionSign_eq]
  cases named : namedDirection (directionText interpreter data) with
  | some direction => simp
  | none =>
      constructor
      · rintro ⟨label, returned⟩
        obtain ⟨pct, read, moved⟩ := bind_eq_ok.mp returned
        obtain ⟨conversion, rfl⟩ := floatOr_eq_ok.mp read
        exact ⟨fun _ => conversion, congrArg Prod.fst (Except.ok.inj moved)⟩
      · rintro ⟨conversion, rfl⟩
        exact ⟨_, bind_eq_ok.mpr ⟨_, floatOr_eq_ok.mpr ⟨conversion rfl, rfl⟩, rfl⟩⟩

/-! ## The decision -/

theorem policyAction_hold (features : Features) (regime : Option Value) :
    (policyAction interpreter params features.confidence (features.score params)
      (RegimeRisk.buyThreshold regime params.buyThreshold features.momentum)
      (RegimeRisk.minConfidence regime params.minConfidence true)).1 = "hold" ↔
      ¬ features.Acts params regime := by
  rw [policyAction, Features.Acts]
  by_cases sure : features.confidence < params.minConfidence
  · simp [sure]
  · by_cases rises : RegimeRisk.buyThreshold regime params.buyThreshold features.momentum ≤
      features.score params
    · by_cases floored : features.confidence <
        RegimeRisk.minConfidence regime params.minConfidence true
      · simp [sure, rises, floored]
      · simp [sure, rises, floored, not_lt.mp sure, not_lt.mp floored]
    · by_cases falls : features.score params ≤ -params.sellThreshold
      · simp [sure, rises, falls, not_lt.mp sure]
      · simp [sure, rises, falls]

theorem readable_iff :
    Readable interpreter data context ↔
      (namedDirection (directionText interpreter data) = none →
        ∀ held, data.lookup "pct" = some held → converts interpreter held = true) ∧
      ((∀ held, context.lookup "news_sentiment" = some held → isSection held = true) ∧
        ∀ held, (entriesAt context "news_sentiment").lookup "sentiment" = some held →
          converts interpreter held = true) ∧
      (∀ held, context.lookup "macro_regime" = some held → isSection held = true) ∧
      ((∀ held, context.lookup "order_book" = some held → isSection held = true) ∧
        ∀ held, (entriesAt context "order_book").lookup "imbalance" = some held →
          converts interpreter held = true) ∧
      ∀ held, data.lookup "composite_score" = some held → converts interpreter held = true := by
  constructor
  · intro readable
    refine ⟨fun unnamed held found => ?_, ⟨?_, fun held found => ?_⟩, ?_,
      ⟨?_, fun held found => ?_⟩, fun held found => ?_⟩
    · exact readable.fields held (by simp [numericFields, unnamed, found])
    · exact readable.sections _ (by simp)
    · exact readable.fields held (by simp [numericFields, found])
    · exact readable.sections _ (by simp)
    · exact readable.sections _ (by simp)
    · exact readable.fields held (by simp [numericFields, found])
    · exact readable.fields held (by simp [numericFields, found])
  · rintro ⟨pct, ⟨news, sentiment⟩, macroRegime, ⟨book, imbalance⟩, score⟩
    constructor
    · intro value read
      rcases List.mem_append.mp read with always | unnamed
      · simp only [List.mem_cons, List.not_mem_nil, or_false] at always
        rcases always with found | found | found
        · exact sentiment value found.symm
        · exact imbalance value found.symm
        · exact score value found.symm
      · by_cases named : namedDirection (directionText interpreter data) = none
        · rw [if_pos named, List.mem_singleton] at unnamed
          exact pct named value unnamed.symm
        · rw [if_neg named] at unnamed
          cases unnamed
    · intro key listed
      simp only [List.mem_cons, List.not_mem_nil, or_false] at listed
      rcases listed with rfl | rfl | rfl
      · exact news
      · exact macroRegime
      · exact book

/-- What the policy does with the features of its inputs. -/
def chosenAction (interpreter : Interpreter) (params : PolicyParams) (data context : Payload) :
    String :=
  let features := features interpreter data context
  (policyAction interpreter params features.confidence (features.score params)
    (RegimeRisk.buyThreshold (tiltRegime context) params.buyThreshold features.momentum)
    (RegimeRisk.minConfidence (tiltRegime context) params.minConfidence true)).1

theorem readable_of_decided {decision : Payload}
    (decided : decidePolicy interpreter data context params = .ok decision) :
    Readable interpreter data context ∧
      decision.lookup "action" = some (.str (chosenAction interpreter params data context)) ∧
      decision.lookup "size_pct" =
        some (.float ((features interpreter data context).sizePct params)) := by
  obtain ⟨⟨momentum, label⟩, directed, decided⟩ := bind_eq_ok.mp decided
  obtain ⟨sentiment, felt, decided⟩ := bind_eq_ok.mp decided
  obtain ⟨macroBias, biased, decided⟩ := bind_eq_ok.mp decided
  obtain ⟨imbalance, booked, decided⟩ := bind_eq_ok.mp decided
  obtain ⟨number, scored, decided⟩ := bind_eq_ok.mp decided
  obtain ⟨pct, rfl⟩ := directionSign_eq_ok.mp ⟨label, directed⟩
  obtain ⟨news, sentimentConverts, rfl⟩ := feature_eq_ok.mp felt
  obtain ⟨macroRegime, rfl⟩ := macroSign_eq_ok.mp biased
  obtain ⟨book, imbalanceConverts, rfl⟩ := feature_eq_ok.mp booked
  obtain ⟨scoreConverts, rfl⟩ := floatOr_eq_ok.mp scored
  refine ⟨readable_iff.mpr ⟨pct, ⟨news, sentimentConverts⟩, macroRegime,
    ⟨book, imbalanceConverts⟩, scoreConverts⟩, ?_⟩
  rw [← Except.ok.inj decided]
  exact ⟨rfl, rfl⟩

theorem decided_of_readable (params : PolicyParams) (readable : Readable interpreter data context) :
    ∃ decision, decidePolicy interpreter data context params = .ok decision := by
  obtain ⟨pct, ⟨news, sentimentConverts⟩, macroRegime, ⟨book, imbalanceConverts⟩,
    scoreConverts⟩ := readable_iff.mp readable
  obtain ⟨label, directed⟩ := directionSign_eq_ok.mpr ⟨pct, rfl⟩
  have felt := feature_eq_ok.mpr ⟨news, sentimentConverts, rfl⟩
  have biased := (@macroSign_eq_ok interpreter context _).mpr ⟨macroRegime, rfl⟩
  have booked := feature_eq_ok.mpr ⟨book, imbalanceConverts, rfl⟩
  have scored := floatOr_eq_ok.mpr ⟨scoreConverts, rfl⟩
  rw [decidePolicy, directed, felt, biased, booked, scored]
  exact ⟨_, rfl⟩

/-- The policy decides, and holds for what is not numeric, exactly where everything that it reads
can be read and, unless every numeric field is numeric, the features do not act. -/
theorem degradesToHold_iff (interpreter : Interpreter) (params : PolicyParams)
    (data context : Payload) :
    DegradesToHold interpreter params data context ↔
      Readable interpreter data context ∧
      (AllNumeric interpreter data context ∨
        ¬ (features interpreter data context).Acts params (tiltRegime context)) := by
  constructor
  · rintro ⟨decision, decided, held⟩
    obtain ⟨readable, acted, -⟩ := readable_of_decided decided
    refine ⟨readable, or_iff_not_imp_left.mpr fun mixed => ?_⟩
    have hold := (held mixed).symm.trans acted
    exact (policyAction_hold _ _).mp (Value.str.inj (Option.some.inj hold)).symm
  · rintro ⟨readable, numericOrIdle⟩
    obtain ⟨decision, decided⟩ := decided_of_readable params readable
    refine ⟨decision, decided, fun mixed => ?_⟩
    have idle := numericOrIdle.resolve_left mixed
    rw [(readable_of_decided decided).2.1, chosenAction, (policyAction_hold _ _).mpr idle]

/-- A score in words raises, and a sentiment that is null does not stop a purchase. -/
theorem malformed_not_held :
    ¬ DegradesToHold Reference.decimalInterpreter {} [("composite_score", .str "abc")] [] ∧
    ¬ DegradesToHold Reference.decimalInterpreter {}
      [("direction", .str "buy"), ("composite_score", .float (9 / 10))]
      [("news_sentiment", .dict [("sentiment", .none)])] := by
  constructor
  · rintro ⟨decision, decided, -⟩
    have raised : decidePolicy Reference.decimalInterpreter [("composite_score", .str "abc")] [] {} =
        .error .valueError := by with_unfolding_all rfl
    rw [raised] at decided
    cases decided
  · rintro ⟨decision, decided, held⟩
    have mixed : ¬ AllNumeric Reference.decimalInterpreter
        [("direction", .str "buy"), ("composite_score", .float (9 / 10))]
        [("news_sentiment", .dict [("sentiment", .none)])] := by
      intro numeric
      have impossible : false = true := numeric .none (List.mem_append_left _ List.mem_cons_self)
      cases impossible
    have buys : chosenAction Reference.decimalInterpreter {}
        [("direction", .str "buy"), ("composite_score", .float (9 / 10))]
        [("news_sentiment", .dict [("sentiment", .none)])] = "buy" := by decide +kernel
    have acted := (readable_of_decided decided).2.1
    rw [held mixed, buys] at acted
    simp at acted

end TradingControl.Reasoning
