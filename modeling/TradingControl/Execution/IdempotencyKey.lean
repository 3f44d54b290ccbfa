import TradingControl.Execution.AtMostOneFill
import TradingControl.Execution.Atomicity
import TradingControl.Execution.GateVerdicts
import TradingControl.Guardian.PaperPositions

/-!
# What the idempotency key identifies

The key joins the strategy, the symbol, the side, the minute and a hash with underscores.  What the
payload lacks of them is drawn afresh in every delivery, and an underscore inside a field moves the
border to its neighbour.
-/

namespace TradingControl

open Effects Python Engine

/-! ## Up to the key -/

theorem gatesThen_bind {α β : Type} (config : Config) (data : Decision) (refused : Engine α)
    (admitted : ParsedDecision → ℚ → Engine α) (rest : α → Engine β) :
    (gatesThen config data refused admitted).bind rest =
      gatesThen config data (refused.bind rest) fun parsed confidence =>
        (admitted parsed confidence).bind rest := by
  simp only [gatesThen, Program.bind_eq_bind, Program.bind_assoc]
  congr 1
  funext accepted
  cases accepted with
  | none => rfl
  | some parsed =>
      simp only [Program.bind_assoc]
      congr 1
      funext atr
      congr 1
      funext pct
      congr 1
      funext gate
      cases gate with
      | none => rfl
      | some reason => rfl

/-- What both paths do with a decision before they look at its timestamp. -/
def sizeDecision (config : Config) (data : Decision) : Engine (Option (ParsedDecision × ℚ × ℚ)) :=
  gatesThen config data (return none) fun parsed confidence => do
    let qty ← applyKellySizing data parsed.qty parsed.price
    return some (parsed, confidence, qty)

/-- The order that a sized decision becomes. -/
def keyDecision (config : Config) (data : Decision) :
    Option (ParsedDecision × ℚ × ℚ) → Engine (Option Order)
  | none => return none
  | some (parsed, confidence, qty) => do
      let minute ← parseTimestamp config data
      return some
        { symbol := parsed.symbol
          side := parsed.side
          qty := qty
          price := parsed.price
          strategyId := parsed.strategyId
          traceId := parsed.traceId
          signalConfidence := confidence
          idempotencyKey :=
            buildIdempotencyKey config parsed.strategyId parsed.symbol parsed.side minute data }

theorem prepareOrder_eq_sizeDecision (config : Config) (data : Decision) :
    prepareOrder config data = (sizeDecision config data).bind (keyDecision config data) := by
  rw [prepareOrder_eq, sizeDecision, gatesThen_bind]
  congr 1
  funext parsed confidence
  simp only [Program.bind_eq_bind, Program.bind_assoc]
  rfl

section

variable {config : Config} {data : Decision} {choices : ℕ → Choice} {world : World}

theorem parsed_of_parseAndValidate {parsed : ParsedDecision}
    (ran : ((parseAndValidate config data).exec engineHandler choices world).1 =
      .ok (some parsed)) :
    parsed.symbol = data.orderSymbol ∧ parsed.side = data.sideOrAction ∧
      parsed.strategyId = orDefault data.strategyId (choices 0).uuid := by
  rw [parseAndValidate, Program.bind_eq_bind, exec_uuid4_bind, Program.bind_eq_bind,
    exec_uuid4_bind] at ran
  cases accepted : parseDecisionFields (choices 0).uuid (choices (0 + 1)).uuid data with
  | error error =>
      rw [accepted] at ran
      cases ran
  | ok valid =>
      obtain ⟨symbol, side, -, -, strategy⟩ := parseDecisionFields_fields accepted
      rw [accepted] at ran
      obtain ⟨blocked, -, returned⟩ := Program.exec_bind_eq_ok.mp ran
      cases blocked with
      | true => cases returned
      | false =>
          cases returned
          exact ⟨symbol, side, strategy⟩

theorem parsed_of_sizeDecision {parsed : ParsedDecision} {confidence qty : ℚ}
    (ran : ((sizeDecision config data).exec engineHandler choices world).1 =
      .ok (some (parsed, confidence, qty))) :
    parsed.symbol = data.orderSymbol ∧ parsed.side = data.sideOrAction ∧
      parsed.strategyId = orDefault data.strategyId (choices 0).uuid := by
  obtain ⟨accepted, validated, returned⟩ := Program.exec_bind_eq_ok.mp ran
  cases accepted with
  | none => cases returned
  | some valid =>
      obtain ⟨atr, -, returned⟩ := Program.exec_bind_eq_ok.mp returned
      obtain ⟨pct, -, returned⟩ := Program.exec_bind_eq_ok.mp returned
      obtain ⟨gate, -, returned⟩ := Program.exec_bind_eq_ok.mp returned
      cases gate with
      | some reason => cases returned
      | none =>
          obtain ⟨size, -, returned⟩ := Program.exec_bind_eq_ok.mp returned
          cases returned
          exact parsed_of_parseAndValidate validated

end

/-! ## Deliveries -/

/-- A hash in hexadecimal digits and a minute in decimal ones hold no underscore. -/
structure Config.WritesDigits (config : Config) : Prop where
  signalHash : ∀ score signalType price qty,
    '_' ∉ (config.signalHash score signalType price qty).toList
  utcMinute : ∀ raw minute, config.utcMinute raw = some minute → '_' ∉ minute.toList

/-- What a delivery meets from the validation on: the world, and what the environment decides, whose
clock tells minutes in digits. -/
structure Arrival where
  choices : ℕ → Choice
  world : World
  clock : ∀ n, '_' ∉ (choices n).utcMinute.toList

namespace Arrival

/-- Id that is drawn for want of a strategy. -/
def drawn (arrival : Arrival) : String := (arrival.choices 0).uuid

variable (arrival : Arrival) (config : Config) (data : Decision)

/-- Minute that the clock shows when the engine comes to ask for it. -/
def now : String :=
  (arrival.choices
    ((sizeDecision config data).steps engineHandler arrival.choices arrival.world)).utcMinute

/-- Strategy of the order. -/
def strategy : String := orDefault data.strategyId arrival.drawn

/-- Minute of the order, where there is one. -/
def minute : Option String :=
  match data.timestamp with
  | none => some (arrival.now config data)
  | some raw => config.utcMinute raw

/-- The key that the engine builds, where it gets so far. -/
def key : Option String :=
  match ((prepareOrder config data).exec engineHandler arrival.choices arrival.world).1 with
  | .ok (some order) => some order.idempotencyKey
  | _ => none

variable {arrival config data} {key : String}

theorem key_eq_some :
    arrival.key config data = some key ↔
      ∃ order, ((prepareOrder config data).exec engineHandler arrival.choices
        arrival.world).1 = .ok (some order) ∧ order.idempotencyKey = key := by
  rw [Arrival.key]
  split
  · rename_i order ran
    rw [ran]
    simp
  · rename_i outcome other
    constructor
    · intro impossible
      cases impossible
    · rintro ⟨order, ran, -⟩
      exact absurd ran (other order)

theorem exec_parseTimestamp {choices : ℕ → Choice} {world : World} {minute : String}
    (ran : ((parseTimestamp config data).exec engineHandler choices world).1 = .ok minute) :
    (match data.timestamp with
      | none => some (choices 0).utcMinute
      | some raw => config.utcMinute raw) = some minute := by
  rw [parseTimestamp] at ran
  cases timestamp : data.timestamp with
  | none =>
      rw [timestamp] at ran
      cases ran
      rfl
  | some raw =>
      rw [timestamp] at ran
      dsimp only at ran ⊢
      cases told : config.utcMinute raw with
      | none =>
          rw [told] at ran
          cases ran
      | some minute =>
          rw [told] at ran
          cases ran
          rfl

/-- The key joins what the payload carries with what the delivery draws for it. -/
theorem key_eq (built : arrival.key config data = some key) :
    ∃ minute, arrival.minute config data = some minute ∧
      key = buildIdempotencyKey config (arrival.strategy data) data.orderSymbol data.sideOrAction
        minute data := by
  obtain ⟨order, ran, rfl⟩ := key_eq_some.mp built
  rw [prepareOrder_eq_sizeDecision] at ran
  obtain ⟨sized, gated, keyed⟩ := Program.exec_bind_eq_ok.mp ran
  rcases sized with _ | ⟨parsed, confidence, qty⟩
  · cases keyed
  · obtain ⟨symbol, side, strategy⟩ := parsed_of_sizeDecision gated
    obtain ⟨minute, told, returned⟩ := Program.exec_bind_eq_ok.mp keyed
    refine ⟨minute, ?_, ?_⟩
    · have read := exec_parseTimestamp told
      rwa [Nat.zero_add] at read
    · cases returned
      rw [symbol, side, strategy]
      rfl

theorem free_minute (digits : config.WritesDigits) {minute : String}
    (told : arrival.minute config data = some minute) : '_' ∉ minute.toList := by
  rw [Arrival.minute] at told
  cases timestamp : data.timestamp with
  | none =>
      rw [timestamp] at told
      obtain rfl := Option.some.inj told
      exact arrival.clock _
  | some raw =>
      rw [timestamp] at told
      exact digits.utcMinute raw minute told

end Arrival

/-! ## Equal keys -/

/-- The two payloads differ in strategy, symbol, side or minute. -/
def Decision.Differs (config : Config) (data other : Decision) : Prop :=
  orDefault data.strategyId "" ≠ orDefault other.strategyId "" ∨
    data.orderSymbol ≠ other.orderSymbol ∨ data.sideOrAction ≠ other.sideOrAction ∨
      data.timestamp.bind config.utcMinute ≠ other.timestamp.bind config.utcMinute

/-- Of one payload, what it lacks is drawn alike in both deliveries. -/
structure DrawnAlike (config : Config) (data : Decision) (first second : Arrival) : Prop where
  strategy : orDefault data.strategyId "" ≠ "" ∨ first.drawn = second.drawn
  minute : data.timestamp.isSome = true ∨ first.now config data = second.now config data

/-- The pieces that underscores leave of the strategy, the symbol and the side. -/
def Arrival.pieces (arrival : Arrival) (data : Decision) : List String :=
  split '_' (arrival.strategy data) ++ split '_' data.orderSymbol ++ split '_' data.sideOrAction

/-- `signal_hash`. -/
def Decision.signalHash (config : Config) (data : Decision) : String :=
  config.signalHash data.compositeScore data.signalType data.price data.qty

/-- The two payloads are told apart by the pieces of their fields, the minute or the hash. -/
def ToldApart (config : Config) (data other : Decision) (first second : Arrival) : Prop :=
  first.pieces data ≠ second.pieces other ∨
    first.minute config data ≠ second.minute config other ∨
      data.signalHash config ≠ other.signalHash config

section

variable {config : Config} {data other : Decision} {first second : Arrival}
  {key otherKey : String}

theorem split_fields (strategy symbol side : String) :
    split '_' (strategy ++ "_" ++ symbol ++ "_" ++ side) =
      split '_' strategy ++ split '_' symbol ++ split '_' side := by
  have mark : "_" = String.ofList ['_'] := rfl
  rw [mark, split_join, split_join]

/-- The key is made of the pieces of its three fields, the minute and the hash. -/
theorem buildIdempotencyKey_eq_iff (digits : config.WritesDigits)
    {strategy symbol side minute otherStrategy otherSymbol otherSide otherMinute : String}
    (free : '_' ∉ minute.toList) (otherFree : '_' ∉ otherMinute.toList) :
    buildIdempotencyKey config strategy symbol side minute data =
        buildIdempotencyKey config otherStrategy otherSymbol otherSide otherMinute other ↔
      split '_' strategy ++ split '_' symbol ++ split '_' side =
          split '_' otherStrategy ++ split '_' otherSymbol ++ split '_' otherSide ∧
        minute = otherMinute ∧ data.signalHash config = other.signalHash config := by
  have hash : '_' ∉ (data.signalHash config).toList := digits.signalHash _ _ _ _
  have otherHash : '_' ∉ (other.signalHash config).toList := digits.signalHash _ _ _ _
  rw [← split_fields, ← split_fields, split_injective.eq_iff]
  show _ ++ String.ofList ['_'] ++ data.signalHash config =
    _ ++ String.ofList ['_'] ++ other.signalHash config ↔ _
  rw [join_eq_iff hash otherHash]
  show _ ++ String.ofList ['_'] ++ minute = _ ++ String.ofList ['_'] ++ otherMinute ∧ _ ↔ _
  rw [join_eq_iff free otherFree, and_assoc]

/-- Two keys are equal exactly when nothing tells the payloads apart. -/
theorem key_eq_iff (digits : config.WritesDigits) (built : first.key config data = some key)
    (otherBuilt : second.key config other = some otherKey) :
    key = otherKey ↔ ¬ToldApart config data other first second := by
  obtain ⟨minute, told, rfl⟩ := Arrival.key_eq built
  obtain ⟨otherMinute, otherTold, rfl⟩ := Arrival.key_eq otherBuilt
  rw [buildIdempotencyKey_eq_iff digits (Arrival.free_minute digits told)
    (Arrival.free_minute digits otherTold)]
  rw [ToldApart, not_or, not_or, not_ne_iff, not_ne_iff, not_ne_iff, told, otherTold,
    Option.some_inj, Arrival.pieces, Arrival.pieces]

theorem pieces_eq_iff :
    first.pieces data = second.pieces data ↔
      (orDefault data.strategyId "" ≠ "" ∨ first.drawn = second.drawn) := by
  rw [Arrival.pieces, Arrival.pieces, List.append_assoc, List.append_assoc,
    List.append_cancel_right_eq, split_injective.eq_iff, Arrival.strategy, Arrival.strategy]
  cases data.strategyId with
  | none => simp [orDefault]
  | some text =>
      by_cases empty : text = ""
      · simp [orDefault, empty]
      · simp [orDefault, empty]

theorem minute_eq_iff :
    first.minute config data = second.minute config data ↔
      (data.timestamp.isSome = true ∨ first.now config data = second.now config data) := by
  rw [Arrival.minute, Arrival.minute]
  cases data.timestamp with
  | none => simp
  | some raw => simp

/-- Two deliveries of a payload build the same key exactly when they draw alike what it lacks. -/
theorem key_eq_iff_drawnAlike (digits : config.WritesDigits)
    (built : first.key config data = some key)
    (otherBuilt : second.key config data = some otherKey) :
    key = otherKey ↔ DrawnAlike config data first second := by
  rw [key_eq_iff digits built otherBuilt, ToldApart, not_or, not_or, not_ne_iff, not_ne_iff,
    not_ne_iff, pieces_eq_iff, minute_eq_iff]
  constructor
  · rintro ⟨strategy, minute, -⟩
    exact ⟨strategy, minute⟩
  · rintro ⟨strategy, minute⟩
    exact ⟨strategy, minute, rfl⟩

end

/-- Two keys identify the order exactly when one payload draws alike what it lacks and two payloads
are told apart by the pieces of their fields, the minute or the hash. -/
theorem key_identifies_iff (config : Config) (data other : Decision) (first second : Arrival)
    (key otherKey : String) (digits : config.WritesDigits)
    (built : first.key config data = some key)
    (otherBuilt : second.key config other = some otherKey) :
    ((data = other → key = otherKey) ∧ (data.Differs config other → key ≠ otherKey)) ↔
      (data = other → DrawnAlike config data first second) ∧
        (data.Differs config other → ToldApart config data other first second) := by
  refine and_congr ?_ ?_
  · refine imp_congr_right fun same => ?_
    subst same
    exact key_eq_iff_drawnAlike digits built otherBuilt
  · rw [ne_eq, key_eq_iff digits built otherBuilt, not_not]

/-! ## What the key confuses -/

/-- An engine with the hash of a quantity of 1.0 at a price of 90.0 and the minute of one stamp. -/
def digitsConfig : Config where
  signalHash _ _ _ _ := "41097a73"
  utcMinute raw := if raw = "2026-01-02T00:00:00+00:00" then some "202601020000" else none

theorem writesDigits_digitsConfig : digitsConfig.WritesDigits := by
  have hash : '_' ∉ "41097a73".toList := by decide
  refine ⟨fun _ _ _ _ => hash, fun raw minute told => ?_⟩
  simp only [digitsConfig] at told
  split at told
  · cases told
    decide
  · cases told

/-- A delivery that draws an id and finds nothing traded. -/
def arrivalDrawing (uuid : String) : Arrival where
  choices _ := { uuid := uuid }
  world := PaperBroker.freshWorld
  clock _ := by
    show '_' ∉ "197001010000".toList
    decide

def namedBuy (strategy symbol : String) : Decision where
  action := some "buy"
  symbol := some symbol
  qty := .text (some 1)
  price := .text (some 90)
  strategyId := some strategy
  traceId := some "trace"
  timestamp := some "2026-01-02T00:00:00+00:00"
  signalConfidence := .text (some 1)

/-- Buys of bitcoin and of ether have keys of their own. -/
theorem key_identifies_symbols :
    (namedBuy "momentum" "BTC/USD" = namedBuy "momentum" "ETH/USD" →
        "momentum_BTC/USD_buy_202601020000_41097a73" =
          "momentum_ETH/USD_buy_202601020000_41097a73") ∧
      ((namedBuy "momentum" "BTC/USD").Differs digitsConfig (namedBuy "momentum" "ETH/USD") →
        "momentum_BTC/USD_buy_202601020000_41097a73" ≠
          "momentum_ETH/USD_buy_202601020000_41097a73") :=
  (key_identifies_iff digitsConfig (namedBuy "momentum" "BTC/USD") (namedBuy "momentum" "ETH/USD")
    (arrivalDrawing "1b4e28ba-2fa1-4d2e-883f-0016d3cca427")
    (arrivalDrawing "7d444840-9dc0-4a1b-b245-5ffdce74fad2") _ _ writesDigits_digitsConfig
    (by decide +kernel) (by decide +kernel)).mpr
    ⟨fun same => absurd same (by decide), fun _ => Or.inl (by decide +kernel)⟩

section

open RiskGuardian Events

/-- Bitcoin that the memory mode bought at 100. -/
def heldBitcoin : List Scanned :=
  [.held (some ("\x7b\"symbol\": \"BTC/USD\", \"side\": \"long\", \"qty\": 1.0, " ++
    "\"entry_price\": 100.0\x7d"))]

/-- What the bus reads back of its stop loss. -/
def readStopLoss : Except Raised (Dict String Value) :=
  let codec := Codec.ofRuntime Reference.decimalRuntime 899
  decodeFields codec
    (closeFields codec closeStamps { stopLossClose "BTC/USD" with strategyId := "" })

/-- The keys that two deliveries build for it. -/
theorem memoryClose_bitcoin :
    ∃ data, MemoryClose Reference.decimalRuntime data ∧
      (arrivalDrawing "1b4e28ba-2fa1-4d2e-883f-0016d3cca427").key digitsConfig data =
        some "1b4e28ba-2fa1-4d2e-883f-0016d3cca427_BTC/USD_sell_202601020000_41097a73" ∧
      (arrivalDrawing "7d444840-9dc0-4a1b-b245-5ffdce74fad2").key digitsConfig data =
        some "7d444840-9dc0-4a1b-b245-5ffdce74fad2_BTC/USD_sell_202601020000_41097a73" := by
  have scanned : { breached "BTC/USD" with strategyId := "" } ∈
      loadPaperPositions Reference.decimalRuntime 900 heldBitcoin := by decide +kernel
  have decided : checkPosition plainPercentages defaultConstants none (some 90) (fun _ => none)
      { breached "BTC/USD" with strategyId := "" } =
        some { stopLossClose "BTC/USD" with strategyId := "" } := by decide +kernel
  have keys : (readStopLoss.toOption.map fun decoded =>
      ((arrivalDrawing "1b4e28ba-2fa1-4d2e-883f-0016d3cca427").key digitsConfig
          (Decision.ofPayload Reference.decimalRuntime decoded),
        (arrivalDrawing "7d444840-9dc0-4a1b-b245-5ffdce74fad2").key digitsConfig
          (Decision.ofPayload Reference.decimalRuntime decoded))) =
      some (some "1b4e28ba-2fa1-4d2e-883f-0016d3cca427_BTC/USD_sell_202601020000_41097a73",
        some "7d444840-9dc0-4a1b-b245-5ffdce74fad2_BTC/USD_sell_202601020000_41097a73") := by
    decide +kernel
  cases read : readStopLoss with
  | error raised =>
      rw [read] at keys
      cases keys
  | ok decoded =>
      rw [read] at keys
      obtain ⟨built, otherBuilt⟩ := Prod.mk.inj (Option.some.inj keys)
      exact ⟨_, .published scanned decided read, built, otherBuilt⟩

end

/-- The stop loss of a position without a strategy is keyed anew in every delivery, and the bitcoin
of one strategy has the key of another strategy's reversion. -/
theorem key_confuses :
    (¬∀ (config : Config) (runtime : Runtime) (data : Decision) (first second : Arrival)
      (key otherKey : String), config.WritesDigits → RiskGuardian.MemoryClose runtime data →
      first.key config data = some key → second.key config data = some otherKey →
      key = otherKey) ∧
    ¬∀ (config : Config) (data other : Decision) (first second : Arrival) (key otherKey : String),
      config.WritesDigits → first.key config data = some key →
      second.key config other = some otherKey → data.Differs config other → key ≠ otherKey := by
  constructor
  · intro always
    obtain ⟨data, closed, built, otherBuilt⟩ := memoryClose_bitcoin
    have same := always digitsConfig Reference.decimalRuntime data _ _ _ _
      writesDigits_digitsConfig closed built otherBuilt
    revert same
    decide
  · intro always
    exact always digitsConfig (namedBuy "mean_reversion" "BTC/USD")
      (namedBuy "mean" "reversion_BTC/USD")
      (arrivalDrawing "1b4e28ba-2fa1-4d2e-883f-0016d3cca427")
      (arrivalDrawing "7d444840-9dc0-4a1b-b245-5ffdce74fad2")
      "mean_reversion_BTC/USD_buy_202601020000_41097a73"
      "mean_reversion_BTC/USD_buy_202601020000_41097a73" writesDigits_digitsConfig
      (by decide +kernel) (by decide +kernel) (Or.inl (by decide)) rfl

end TradingControl
