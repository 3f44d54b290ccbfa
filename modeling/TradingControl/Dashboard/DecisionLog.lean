import TradingControl.Dashboard.InMemoryStore
import TradingControl.Effects.History
import TradingControl.Effects.SeenLog
import TradingControl.Python.Reference
import TradingControl.Python.Window

/-!
# The decisions of the runtime store

A decision is recorded once: its key is registered before its event is built, and it comes to
nothing while the key is on record.  What cannot be converted raises in between.
-/

namespace TradingControl.Dashboard

open Effects KeyWindow Python

-- the window lemmas say all there is to know, and five hundred is too far to unfold
attribute [local irreducible] lastItems

/-- `DECISION_KEY_CAP`. -/
def decisionKeyCap : ℕ := 2000

/-- The part of `InMemoryStore` that decisions are recorded in. -/
structure DecisionLog where
  decisions : List (Dict String Value) := []
  appliedDecisionKeys : Finset String := ∅
  decisionKeyOrder : List String := []

/-- A call of `record_decision`, and the time it happens at. -/
structure DecisionCall where
  payload : Dict String Value
  now : String

/-! ## Recording -/

/-- `_decision_key`. -/
def decisionKey (runtime : Runtime) (payload : Dict String Value) : String :=
  let named := ["redis_stream_id", "stream_id", "id", "trace_id"].findSome? fun key =>
    ((Value.get payload key).filter Value.truthy).map fun value => key ++ ":" ++ runtime.str value
  match named with
  | some key => key
  | none =>
      let text (key : String) := runtime.str (Value.orElse (Value.get payload key) (.str ""))
      "derived:" ++ text "timestamp" ++ ":" ++ text "symbol" ++ ":" ++ text "action" ++ ":" ++
        text "price"

/-- A quantity that is not positive is what the notional buys, where there is a price. -/
def decisionQuantity (notional : ℚ) (price : Number) (quantity : Option Number) :
    Except Raised (Option Number) :=
  if quantity.all (·.le (.finite 0)) && Number.lt (.finite 0) price then
    some <$> Number.div (.finite notional) price
  else .ok quantity

section

variable (interpreter : Interpreter) (notional : ℚ)

/-- The event that a payload is recorded as; `notional` is `DEFAULT_TRADE_NOTIONAL`. -/
def decisionEvent (now : String) (recorded : ℕ) (payload : Dict String Value) :
    Except Raised (Dict String Value) := do
  let get := Value.get payload
  let action := upper (interpreter.str ((get "action").getD (.str "hold")))
  let symbol := strip (interpreter.str (Value.orElse (get "symbol") (.str "")))
  let price := (← safeFloat interpreter ((get "price").getD .none)).getD (.finite 0)
  let quantity ← decisionQuantity notional price
    (← safeFloat interpreter ((get "qty").getD .none))
  let confidence ← safeFloat interpreter ((get "confidence").getD .none)
  return [
    ("id", Value.orElse (get "id") (Value.orElse (get "trace_id")
      (.str ("mem-dec-" ++ toString (recorded + 1))))),
    ("trace_id", (get "trace_id").getD .none),
    ("timestamp", Value.orElse (get "timestamp") (.str now)),
    ("symbol", .str symbol),
    ("action", .str action),
    ("price", price.toValue),
    ("qty", (quantity.getD (.finite 0)).toValue),
    ("confidence", (confidence.map Number.toValue).getD .none),
    ("agent", Value.orElse (get "agent") (.str "reasoning_agent")),
    ("reason", Value.orElse (get "reasoning_summary") ((get "reason").getD .none))]

namespace DecisionLog

/-- `record_decision`: what it returns or raises, and the log after it. -/
def recordDecision (log : DecisionLog) (call : DecisionCall) :
    Except Raised (Dict String Value) × DecisionLog :=
  let payload := call.payload
  let decisionKey := decisionKey interpreter.toRuntime payload
  if decisionKey ∈ log.appliedDecisionKeys then
    (.ok [("id", Value.orElse (Value.get payload "id")
        (Value.orElse (Value.get payload "trace_id") (.str decisionKey))),
      ("deduplicated", .bool true)], log)
  else
    let window := evict decisionKeyCap (log.decisionKeyOrder ++ [decisionKey])
      (insert decisionKey log.appliedDecisionKeys)
    let log := { log with decisionKeyOrder := window.1, appliedDecisionKeys := window.2 }
    match decisionEvent interpreter notional call.now log.decisions.length payload with
    | .ok event => (.ok event, { log with decisions := lastItems 500 (log.decisions ++ [event]) })
    | .error error => (.error error, log)

def recordDecisions (log : DecisionLog) (calls : List DecisionCall) : DecisionLog :=
  calls.foldl (fun log call => (log.recordDecision interpreter notional call).2) log

end DecisionLog

end

/-! ## What raises -/

/-- An integer that no float can hold. -/
def oversized : Value → Bool
  | .int value => floatLimit ≤ |value|
  | _ => false

/-- The numbers that a decision is recorded with. -/
def convertible (payload : Dict String Value) : Bool :=
  ["price", "qty", "confidence"].all fun name => !oversized ((Value.get payload name).getD .none)

theorem safeFloat_ok (interpreter : Interpreter) {value : Value}
    (small : oversized value = false) : ∃ number, safeFloat interpreter value = .ok number := by
  unfold safeFloat
  cases value with
  | int value =>
      have fits : |value| < floatLimit := by
        simpa [oversized] using small
      exact ⟨some (.finite value), by rw [Interpreter.float, if_pos fits]⟩
  | str text =>
      rw [Interpreter.float]
      cases interpreter.parseNumber text <;> exact ⟨_, rfl⟩
  | _ => exact ⟨_, rfl⟩

theorem safeFloat_oversized (interpreter : Interpreter) {value : Value}
    (large : oversized value = true) :
    safeFloat interpreter value = .error .overflowError := by
  cases value with
  | int value =>
      have tooLarge : ¬|value| < floatLimit := by
        simpa [oversized] using large
      rw [safeFloat, Interpreter.float, if_neg tooLarge]
  | _ => cases large

theorem decisionQuantity_ok (notional : ℚ) (price : Number) (quantity : Option Number) :
    ∃ traded, decisionQuantity notional price quantity = .ok traded := by
  unfold decisionQuantity
  split_ifs with derived
  · rw [Bool.and_eq_true] at derived
    cases price with
    | finite price =>
        -- a price above zero divides
        have nonzero : price ≠ 0 := by
          have above : 0 < price := by simpa [Number.lt] using derived.2
          exact above.ne'
        rw [Number.div, if_neg nonzero]
        exact ⟨_, rfl⟩
    | nonFinite price => cases price <;> exact ⟨_, rfl⟩
  · exact ⟨_, rfl⟩

/-- An event is built exactly from numbers that convert. -/
theorem decisionEvent_ok_iff (interpreter : Interpreter) (notional : ℚ) (now : String)
    (recorded : ℕ) (payload : Dict String Value) :
    (∃ event, decisionEvent interpreter notional now recorded payload = .ok event) ↔
      convertible payload = true := by
  have each : convertible payload = true ↔
      oversized ((Value.get payload "price").getD .none) = false ∧
        oversized ((Value.get payload "qty").getD .none) = false ∧
          oversized ((Value.get payload "confidence").getD .none) = false := by
    simp [convertible]
  rw [each, decisionEvent]
  constructor
  · rintro ⟨event, built⟩
    obtain ⟨price, priced, built⟩ := bind_eq_ok.mp built
    obtain ⟨quantity, sized, built⟩ := bind_eq_ok.mp built
    obtain ⟨traded, -, built⟩ := bind_eq_ok.mp built
    obtain ⟨confidence, sure, -⟩ := bind_eq_ok.mp built
    have small {value : Value} {number : Option Number}
        (converted : safeFloat interpreter value = .ok number) : oversized value = false := by
      by_contra large
      rw [Bool.not_eq_false] at large
      rw [safeFloat_oversized interpreter large] at converted
      cases converted
    exact ⟨small priced, small sized, small sure⟩
  · rintro ⟨smallPrice, smallQuantity, smallConfidence⟩
    obtain ⟨price, priced⟩ := safeFloat_ok interpreter smallPrice
    obtain ⟨quantity, sized⟩ := safeFloat_ok interpreter smallQuantity
    obtain ⟨confidence, sure⟩ := safeFloat_ok interpreter smallConfidence
    obtain ⟨traded, derived⟩ := decisionQuantity_ok notional (price.getD (.finite 0)) quantity
    simp only [priced, sized, derived, sure, bind, Except.bind, pure, Except.pure]
    exact ⟨_, rfl⟩

/-! ## One call -/

/-- What is returned for a payload that was appended to the decisions. -/
def appendedEvent : Except Raised (Dict String Value) → Option (Dict String Value)
  | .ok event => if (Value.get event "deduplicated").isSome then none else some event
  | .error _ => none

section

variable {interpreter : Interpreter} {notional : ℚ}

def DecisionCall.key (interpreter : Interpreter) (call : DecisionCall) : String :=
  decisionKey interpreter.toRuntime call.payload

/-- The log once a call has registered its key. -/
def DecisionLog.registered (log : DecisionLog) (key : String) : DecisionLog :=
  let window := evict decisionKeyCap (log.decisionKeyOrder ++ [key])
    (insert key log.appliedDecisionKeys)
  { log with decisionKeyOrder := window.1, appliedDecisionKeys := window.2 }

theorem appendedEvent_of_built {now : String} {recorded : ℕ}
    {payload event : Dict String Value}
    (built : decisionEvent interpreter notional now recorded payload = .ok event) :
    appendedEvent (.ok event) = some event := by
  rw [decisionEvent] at built
  obtain ⟨price, -, built⟩ := bind_eq_ok.mp built
  obtain ⟨quantity, -, built⟩ := bind_eq_ok.mp built
  obtain ⟨traded, -, built⟩ := bind_eq_ok.mp built
  obtain ⟨confidence, -, built⟩ := bind_eq_ok.mp built
  cases built
  rfl

/-- A call whose key is on record comes to nothing.  Another one registers its key, and then appends
its event or raises. -/
theorem recordDecision_cases (log : DecisionLog) (call : DecisionCall) :
    (call.key interpreter ∈ log.appliedDecisionKeys ∧
      appendedEvent (log.recordDecision interpreter notional call).1 = none ∧
      (log.recordDecision interpreter notional call).2 = log) ∨
    (call.key interpreter ∉ log.appliedDecisionKeys ∧ convertible call.payload = true ∧
      ∃ event, appendedEvent (log.recordDecision interpreter notional call).1 = some event ∧
        (log.recordDecision interpreter notional call).2 =
          { log.registered (call.key interpreter) with
            decisions := lastItems 500 (log.decisions ++ [event]) }) ∨
    (call.key interpreter ∉ log.appliedDecisionKeys ∧ convertible call.payload = false ∧
      appendedEvent (log.recordDecision interpreter notional call).1 = none ∧
      (log.recordDecision interpreter notional call).2 =
        log.registered (call.key interpreter)) := by
  have exact := decisionEvent_ok_iff interpreter notional call.now log.decisions.length call.payload
  unfold DecisionLog.recordDecision
  dsimp only
  by_cases known : call.key interpreter ∈ log.appliedDecisionKeys
  · have onRecord : decisionKey interpreter.toRuntime call.payload ∈ log.appliedDecisionKeys :=
      known
    rw [if_pos onRecord]
    exact .inl ⟨known, rfl, rfl⟩
  · have offRecord : decisionKey interpreter.toRuntime call.payload ∉ log.appliedDecisionKeys :=
      known
    rw [if_neg offRecord]
    right
    rcases built : decisionEvent interpreter notional call.now log.decisions.length call.payload
      with error | event
    · refine .inr ⟨known, ?_, rfl, rfl⟩
      rw [built] at exact
      rw [← Bool.not_eq_true]
      intro converts
      obtain ⟨event, same⟩ := exact.mpr converts
      cases same
    · exact .inl ⟨known, exact.mp ⟨event, built⟩, event, appendedEvent_of_built built, rfl⟩

/-- A payload is appended exactly when its key is not on record and its numbers convert. -/
theorem appended_iff (log : DecisionLog) (call : DecisionCall) :
    (appendedEvent (log.recordDecision interpreter notional call).1).isSome = true ↔
      call.key interpreter ∉ log.appliedDecisionKeys ∧ convertible call.payload = true := by
  rcases @recordDecision_cases interpreter notional log call with
    ⟨known, returned, -⟩ | ⟨unknown, converts, event, returned, -⟩ |
      ⟨unknown, raises, returned, -⟩
  · rw [returned]
    simp [known]
  · rw [returned]
    simp [unknown, converts]
  · rw [returned]
    simp [raises]

end

/-! ## Runs -/

/-- Set and queue of keys belong together. -/
def DecisionLog.Windowed (log : DecisionLog) : Prop :=
  Consistent decisionKeyCap log.decisionKeyOrder log.appliedDecisionKeys

section

variable (interpreter : Interpreter) (notional : ℚ)

/-- Keys and events of the payloads that calls append, oldest first. -/
def DecisionLog.appended (log : DecisionLog) :
    List DecisionCall → List (String × Dict String Value)
  | [] => []
  | call :: calls =>
      ((appendedEvent (log.recordDecision interpreter notional call).1).map
          fun event => (call.key interpreter, event)).toList ++
        (log.recordDecision interpreter notional call).2.appended calls

/-- A payload whose key is not on record has numbers that convert. -/
def Converts (log : DecisionLog) (call : DecisionCall) : Prop :=
  call.key interpreter ∉ log.appliedDecisionKeys → convertible call.payload = true

end

section

variable {interpreter : Interpreter} {notional : ℚ}

theorem appended_append (log : DecisionLog) (calls more : List DecisionCall) :
    log.appended interpreter notional (calls ++ more) =
      log.appended interpreter notional calls ++
        (log.recordDecisions interpreter notional calls).appended interpreter notional more := by
  induction calls generalizing log with
  | nil => rfl
  | cons call calls induction =>
      rw [List.cons_append, DecisionLog.appended, DecisionLog.appended, induction,
        List.append_assoc]
      rfl

theorem appended_concat (log : DecisionLog) (calls : List DecisionCall) (call : DecisionCall) :
    log.appended interpreter notional (calls ++ [call]) =
      log.appended interpreter notional calls ++
        ((appendedEvent ((log.recordDecisions interpreter notional calls).recordDecision interpreter
          notional call).1).map fun event => (call.key interpreter, event)).toList := by
  rw [appended_append, DecisionLog.appended, DecisionLog.appended, List.append_nil]

theorem recordDecisions_concat (log : DecisionLog) (calls : List DecisionCall)
    (call : DecisionCall) :
    log.recordDecisions interpreter notional (calls ++ [call]) =
      ((log.recordDecisions interpreter notional calls).recordDecision interpreter
        notional call).2 := by
  rw [DecisionLog.recordDecisions, List.foldl_append]
  rfl

theorem retained_eq_lastItems {α : Type} (cap : ℕ) (items : List α) :
    CappedLog.retained (some cap) items = lastItems cap items := by
  rw [lastItems]
  rfl

theorem DecisionLog.Windowed.registered {log : DecisionLog} (windowed : log.Windowed) {key : String}
    (unknown : key ∉ log.appliedDecisionKeys) :
    (log.registered key).Windowed ∧ (log.registered key).decisionKeyOrder =
      lastItems decisionKeyCap (log.decisionKeyOrder ++ [key]) := by
  obtain ⟨evicted, consistent⟩ := windowed.register unknown
  rw [retained_eq_lastItems] at evicted consistent
  unfold DecisionLog.registered DecisionLog.Windowed
  rw [evicted]
  exact ⟨consistent, rfl⟩

/-- A call keeps set and queue together, whether it raises or not. -/
theorem DecisionLog.Windowed.recordDecision {log : DecisionLog} (windowed : log.Windowed)
    (call : DecisionCall) : (log.recordDecision interpreter notional call).2.Windowed := by
  rcases @recordDecision_cases interpreter notional log call with
    ⟨-, -, same⟩ | ⟨unknown, -, event, -, next⟩ | ⟨unknown, -, -, next⟩
  · rw [same]
    exact windowed
  · rw [next]
    exact (windowed.registered unknown).1
  · rw [next]
    exact (windowed.registered unknown).1

theorem windowed_recordDecisions (calls : List DecisionCall) :
    (DecisionLog.recordDecisions interpreter notional {} calls).Windowed := by
  induction calls using List.reverseRecOn with
  | nil => exact ⟨rfl, List.nodup_nil, Nat.zero_le _⟩
  | append_singleton calls call induction =>
      rw [recordDecisions_concat]
      exact induction.recordDecision call

theorem decisions_recordDecisions (log : DecisionLog) (calls : List DecisionCall) :
    (log.recordDecisions interpreter notional calls).decisions =
      if log.appended interpreter notional calls = [] then log.decisions
      else
        lastItems 500
          (log.decisions ++ (log.appended interpreter notional calls).map Prod.snd) := by
  induction calls generalizing log with
  | nil => rfl
  | cons call calls induction =>
      have later := induction (log.recordDecision interpreter notional call).2
      rw [DecisionLog.appended, DecisionLog.recordDecisions, List.foldl_cons,
        ← DecisionLog.recordDecisions, later]
      rcases @recordDecision_cases interpreter notional log call with
        ⟨-, returned, next⟩ | ⟨-, -, event, returned, next⟩ | ⟨-, -, returned, next⟩
      · rw [returned, next]
        rfl
      · rw [returned, next]
        generalize DecisionLog.appended interpreter notional _ calls = rest
        cases rest with
        | nil => simp
        | cons first rest => simp [lastItems_append_left]
      · rw [returned, next]
        rfl

theorem decisions_of_empty (calls : List DecisionCall) :
    (DecisionLog.recordDecisions interpreter notional {} calls).decisions =
      lastItems 500 ((DecisionLog.appended interpreter notional {} calls).map Prod.snd) := by
  rw [decisions_recordDecisions]
  split_ifs with none
  · rw [none, List.map_nil, lastItems_nil]
  · rw [List.nil_append]

theorem length_appended_le (log : DecisionLog) (calls : List DecisionCall) :
    (log.appended interpreter notional calls).length ≤ calls.length := by
  induction calls generalizing log with
  | nil => exact Nat.le_refl 0
  | cons call calls induction =>
      rw [DecisionLog.appended, List.length_append, List.length_cons, Nat.add_comm]
      exact Nat.add_le_add (induction _) (Option.length_toList_le)

theorem recorded_of_appended_nil {log : DecisionLog} {calls : List DecisionCall}
    (converts : ∀ call ∈ calls, convertible call.payload = true)
    (none : log.appended interpreter notional calls = []) :
    ∀ call ∈ calls, call.key interpreter ∈ log.appliedDecisionKeys := by
  induction calls with
  | nil => simp
  | cons call calls induction =>
      rw [DecisionLog.appended, List.append_eq_nil_iff] at none
      rcases @recordDecision_cases interpreter notional log call with
        ⟨known, -, same⟩ | ⟨-, -, event, returned, -⟩ | ⟨-, raises, -, -⟩
      · rw [List.forall_mem_cons]
        refine ⟨known, induction (fun other member => ?_) (same ▸ none.2)⟩
        exact converts other (List.mem_cons_of_mem _ member)
      · rw [returned] at none
        cases none.1
      · rw [converts call List.mem_cons_self] at raises
        cases raises

/-- Where the numbers of every new payload convert, the window holds the last appended keys. -/
theorem order_recordDecisions {calls : List DecisionCall}
    (along : Along (fun log call => (log.recordDecision interpreter notional call).2)
      (Converts interpreter) {} calls) :
    (DecisionLog.recordDecisions interpreter notional {} calls).decisionKeyOrder =
      lastItems decisionKeyCap
        ((DecisionLog.appended interpreter notional {} calls).map Prod.fst) := by
  induction calls using List.reverseRecOn with
  | nil => exact (lastItems_nil decisionKeyCap).symm
  | append_singleton calls call induction =>
      obtain ⟨earlier, converts⟩ := along.split rfl
      have order := induction earlier
      rw [recordDecisions_concat, appended_concat]
      rcases @recordDecision_cases interpreter notional
          (DecisionLog.recordDecisions interpreter notional {} calls) call with
        ⟨-, returned, next⟩ | ⟨unknown, -, event, returned, next⟩ |
          ⟨unknown, raises, -, -⟩
      · rw [returned, next, order]
        simp
      · have window := ((windowed_recordDecisions calls).registered unknown).2
        rw [returned, next]
        dsimp only
        rw [window, order, lastItems_append_singleton]
        simp
      · rw [converts unknown] at raises
        cases raises

/-- Set and queue hold the same keys in every state of every run.  They are the keys of the last
appended payloads, so that every payload is appended that has none of these keys, exactly as long
as no payload raises once its key is registered. -/
theorem decisions_windowed (interpreter : Interpreter) (notional : ℚ)
    (calls : List DecisionCall) :
    (∀ earlier later, calls = earlier ++ later →
      (DecisionLog.recordDecisions interpreter notional {} earlier).Windowed ∧
        (DecisionLog.recordDecisions interpreter notional {} earlier).decisions =
          lastItems 500 ((DecisionLog.appended interpreter notional {} earlier).map Prod.snd)) ∧
    ((∀ earlier call later, calls = earlier ++ call :: later →
      ((appendedEvent ((DecisionLog.recordDecisions interpreter notional {} earlier).recordDecision
          interpreter notional call).1).isSome = true ↔
        call.key interpreter ∉ lastItems decisionKeyCap
          ((DecisionLog.appended interpreter notional {} earlier).map Prod.fst))) ↔
      Along (fun log call => (log.recordDecision interpreter notional call).2)
        (Converts interpreter) {} calls) := by
  refine ⟨fun earlier later _ => ⟨windowed_recordDecisions earlier,
    decisions_of_empty earlier⟩, ?_⟩
  have known (earlier : List DecisionCall)
      (along : Along (fun log call => (log.recordDecision interpreter notional call).2)
        (Converts interpreter) {} earlier) (key : String) :
      key ∈ lastItems decisionKeyCap
          ((DecisionLog.appended interpreter notional {} earlier).map Prod.fst) ↔
        key ∈
          (DecisionLog.recordDecisions interpreter notional {} earlier).appliedDecisionKeys := by
    have same := (@windowed_recordDecisions interpreter notional earlier).same
    rw [← order_recordDecisions along, same, List.mem_toFinset]
  constructor
  · intro exact
    induction calls using List.reverseRecOn with
    | nil => trivial
    | append_singleton calls call induction =>
        have along := induction fun earlier other later split =>
          exact earlier other (later ++ [call]) (by rw [split]; simp)
        rw [along_append]
        refine ⟨along, ⟨?_, trivial⟩⟩
        intro unknown
        have appended := (exact calls call [] rfl).mpr (by rwa [known calls along])
        exact (appended_iff _ _).mp appended |>.2
  · intro along earlier call later split
    obtain ⟨before, converts⟩ := along.split split
    rw [appended_iff, known earlier before]
    exact ⟨fun both => both.1, fun unknown => ⟨unknown, converts unknown⟩⟩

end

/-- A price that no float can hold raises after the key is registered: the decision is not recorded,
and the repaired one that follows is taken for a repetition. -/
theorem oversized_price_lost :
    let large : DecisionCall := ⟨[("id", .str "d-1"), ("price", .int (10 ^ 400))], ""⟩
    let repaired : DecisionCall := ⟨[("id", .str "d-1"), ("price", .int 100)], ""⟩
    let log := DecisionLog.recordDecisions Reference.decimalInterpreter 1000 {} [large]
    repaired.key Reference.decimalInterpreter ∉ lastItems decisionKeyCap
        ((DecisionLog.appended Reference.decimalInterpreter 1000 {} [large]).map Prod.fst) ∧
      (appendedEvent
        (log.recordDecision Reference.decimalInterpreter 1000 repaired).1).isSome = false ∧
      log.decisions.length = 0 := by
  decide +kernel

end TradingControl.Dashboard
