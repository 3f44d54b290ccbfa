import TradingControl.Effects.Recency
import TradingControl.Events.SecondHop
import TradingControl.Learning.DeliveredFills

/-!
# Paired closes through the bus

The events that a fill is published as on the two trade streams, what the bus makes of their trace
ids, and the closes that an agent which reads both streams lets through.
-/

namespace TradingControl.Learning

open Events Python

/-! ## Events -/

/-- A number, or `None`. -/
def optionalFloat : Option ℚ → Value
  | none => .none
  | some value => .float value

def tradePerformanceEvent (ctx : FillContext) (msgId now : String) : Dict String Value :=
  [("msg_id", .str msgId), ("type", .str "trade_performance"), ("schema_version", .str "v3"),
    ("order_id", .str ctx.orderId), ("trade_id", .str ctx.orderId),
    ("strategy_id", .str ctx.strategyId), ("symbol", .str ctx.symbol), ("side", .str ctx.side),
    ("qty", .float ctx.qty), ("quantity", .float ctx.qty), ("fill_price", .float ctx.fillPrice),
    ("entry_price", .float ctx.entryPrice),
    ("exit_price", if ctx.isRoundTripClose then .float ctx.fillPrice else .none),
    ("pnl", optionalFloat ctx.pnlValue), ("pnl_percent", .float ctx.pnlPercent),
    ("trace_id", .str ctx.traceId), ("filled_at", .str ctx.filledAt),
    ("entry_time", .str ctx.filledAt),
    ("exit_time", if ctx.isRoundTripClose then .str ctx.filledAt else .none),
    ("timestamp", .str now), ("source", .str "execution_engine"),
    ("session_id", .str ctx.strategyId), ("model_used", .str ctx.modelUsed),
    ("primary_edge", .str ctx.primaryEdge), ("decision_cost_usd", .float ctx.decisionCostUsd)]

def tradeCompletedEvent (ctx : FillContext) (msgId now : String) : Dict String Value :=
  [("msg_id", .str msgId), ("type", .str "trade_completed"), ("source", .str "execution_engine"),
    ("trace_id", .str ctx.traceId), ("session_id", .str ctx.strategyId),
    ("order_id", .str ctx.orderId), ("symbol", .str ctx.symbol), ("side", .str ctx.side),
    ("qty", .float ctx.qty), ("entry_price", .float ctx.entryPrice),
    ("exit_price", .float ctx.fillPrice), ("pnl", .float ctx.realizedPnl),
    ("pnl_percent", .float ctx.pnlPercent), ("timestamp", .str now),
    ("executed_at", .str ctx.filledAt), ("model_used", .str ctx.modelUsed),
    ("primary_edge", .str ctx.primaryEdge), ("decision_cost_usd", .float ctx.decisionCostUsd)]

/-- A copy of a fill on one of the trade streams, as it was published. -/
inductive TradeCopy where
  | performance (fill : PublishedFill) (msgId now : String)
  | completed (fill : PublishedFill) (closes : fill.closes = true) (msgId now : String)

namespace TradeCopy

def fill : TradeCopy → PublishedFill
  | .performance fill _ _ => fill
  | .completed fill _ _ _ => fill

def event : TradeCopy → Dict String Value
  | .performance fill msgId now => tradePerformanceEvent fill.ctx msgId now
  | .completed fill _ msgId now => tradeCompletedEvent fill.ctx msgId now

def now : TradeCopy → String
  | .performance _ _ now => now
  | .completed _ _ _ now => now

/-- The data that a consumer reads. -/
def data (codec : Codec) (copy : TradeCopy) : Except Raised (Dict String Value) :=
  hop codec copy.event copy.now

/-- A close with a trace id. -/
def isPaired (copy : TradeCopy) : Bool := copy.fill.closes && copy.fill.ctx.traceId ≠ ""

end TradeCopy

/-! ## The gate -/

/-- `pnl is None or pnl == ""`. -/
def noPnl : Value → Bool
  | .none => true
  | .str text => text = ""
  | _ => false

/-- `PairedCloseDeduper.is_duplicate`, and the traces that it remembers, the oldest first. -/
def isDuplicateEvent (runtime : Runtime) (maxTraces : ℕ) (seen : List String)
    (data : Dict String Value) : Bool × List String :=
  let traceId := (Value.get data "trace_id").getD .none
  let pnl := (Value.get data "pnl").getD .none
  if !traceId.truthy || noPnl pnl then (false, seen)
  else Recency.touch maxTraces seen (runtime.str traceId)

/-- The copies that an agent lets through, from those that it reads. -/
def letThrough (codec : Codec) (maxTraces : ℕ) : List String → List TradeCopy → List TradeCopy
  | _, [] => []
  | seen, copy :: copies =>
      match copy.data codec with
      | .error _ => letThrough codec maxTraces seen copies
      | .ok data =>
          let (duplicate, seen) := isDuplicateEvent codec.runtime maxTraces seen data
          if duplicate then letThrough codec maxTraces seen copies
          else copy :: letThrough codec maxTraces seen copies

/-- Each close with a trace id is let through exactly once, and every other copy each time. -/
structure ExactlyOnce (codec : Codec) (maxTraces : ℕ) (copies : List TradeCopy) : Prop where
  closes : ∀ copy ∈ copies, copy.isPaired = true →
    (letThrough codec maxTraces [] copies).countP
      (fun other => other.isPaired && other.fill.ctx = copy.fill.ctx) = 1
  others : (letThrough codec maxTraces [] copies).filter (fun copy => !copy.isPaired) =
    copies.filter fun copy => !copy.isPaired

/-! ## Keys of copies -/

def gateKey (runtime : Runtime) (data : Dict String Value) : Option String :=
  let traceId := (Value.get data "trace_id").getD .none
  if !traceId.truthy || noPnl ((Value.get data "pnl").getD .none) then none
  else some (runtime.str traceId)

theorem isDuplicateEvent_eq (runtime : Runtime) (maxTraces : ℕ) (seen : List String)
    (data : Dict String Value) :
    isDuplicateEvent runtime maxTraces seen data =
      match gateKey runtime data with
      | none => (false, seen)
      | some key => Recency.touch maxTraces seen key := by
  simp only [isDuplicateEvent, gateKey]
  split_ifs <;> rfl

namespace TradeCopy

variable {copy : TradeCopy}

def key (codec : Codec) (copy : TradeCopy) : Option String :=
  match copy.data codec with
  | .ok data => gateKey codec.runtime data
  | .error _ => none

theorem nodup_event (copy : TradeCopy) : (Dict.keys copy.event).Nodup := by
  cases copy with
  | performance fill msgId now => simp [event, tradePerformanceEvent, Dict.keys]
  | completed fill closes msgId now => simp [event, tradeCompletedEvent, Dict.keys]

theorem traceId_mem (copy : TradeCopy) : ("trace_id", .str copy.fill.ctx.traceId) ∈ copy.event := by
  cases copy <;> simp [event, tradePerformanceEvent, tradeCompletedEvent, fill]

/-- The PnL that a copy is published with. -/
theorem pnl_mem (copy : TradeCopy) :
    ("pnl", if copy.fill.closes then .float copy.fill.ctx.realizedPnl else .none) ∈ copy.event := by
  cases copy with
  | performance fill msgId now =>
      have value : optionalFloat fill.ctx.pnlValue =
          if fill.closes then .float fill.ctx.realizedPnl else .none := by
        cases closes : fill.closes with
        | true => rw [fill.pnlValue_closing closes]; rfl
        | false => rw [fill.pnlValue_opening closes]; rfl
      rw [TradeCopy.fill, ← value]
      simp [event, tradePerformanceEvent]
  | completed fill closes msgId now =>
      rw [TradeCopy.fill, closes]
      simp [event, tradeCompletedEvent]

/-- The key of a copy that is read: none for a fill that opens and for a trace id that comes back
falsy, and else the text of what the trace id comes back as. -/
theorem key_of_read {runtime : Runtime} {depth : ℕ} {data : Dict String Value}
    (read : copy.data (Codec.ofRuntime runtime depth) = .ok data)
    (prints : copy.fill.closes = true → Json.FloatText runtime copy.fill.ctx.realizedPnl) :
    ∃ traceId, carry (Codec.ofRuntime runtime depth) (.str copy.fill.ctx.traceId) = .ok traceId ∧
      copy.key (Codec.ofRuntime runtime depth) =
        if copy.fill.closes && traceId.truthy then some (runtime.str traceId) else none := by
  have distinct := copy.nodup_event
  obtain ⟨traceId, carried, held⟩ := lookup_hop distinct read copy.traceId_mem
  obtain ⟨pnl, sent, got⟩ := lookup_hop distinct read copy.pnl_mem
  refine ⟨traceId, carried, ?_⟩
  simp only [key, read, gateKey, Value.get, held, got, Option.getD_some]
  cases closes : copy.fill.closes with
  | false =>
      rw [closes] at sent
      have empty : pnl = .str "" := Except.ok.inj (sent.symm.trans (carry_none _))
      simp [empty, noPnl]
  | true =>
      rw [closes] at sent
      have text : pnl = .str (runtime.text copy.fill.ctx.realizedPnl) :=
        Except.ok.inj (sent.symm.trans (carry_float (prints closes)))
      have present : noPnl pnl = false := by
        rw [text, noPnl]
        exact decide_eq_false (plain_of_floatText (prints closes)).2
      cases truthy : traceId.truthy <;> simp [present, Codec.ofRuntime]

end TradeCopy

/-! ## Exactly once -/

/-- The gate lets through what its log of keys lets through. -/
theorem letThrough_eq_passed {codec : Codec} {maxTraces : ℕ} {copies : List TradeCopy}
    (read : ∀ copy ∈ copies, (copy.data codec).isOk = true) (seen : List String) :
    letThrough codec maxTraces seen copies =
      Recency.passed maxTraces (TradeCopy.key codec) seen copies := by
  induction copies generalizing seen with
  | nil => rfl
  | cons copy copies induction =>
      obtain ⟨first, others⟩ := List.forall_mem_cons.mp read
      rw [letThrough, Recency.passed]
      cases data : copy.data codec with
      | error raised => rw [data] at first; cases first
      | ok data' =>
          simp only [TradeCopy.key, data, isDuplicateEvent_eq]
          cases gateKey codec.runtime data' with
          | none => exact congrArg (copy :: ·) (induction others seen)
          | some key =>
              dsimp only
              split_ifs
              · exact induction others _
              · exact congrArg (copy :: ·) (induction others _)

/-- The trace ids of the closes that are read come back as values that are true and told apart by
their texts. -/
structure TracesKept (codec : Codec) (copies : List TradeCopy) : Prop where
  read : ∀ copy ∈ copies, (copy.data codec).isOk = true
  truthy : ∀ copy ∈ copies, copy.isPaired = true → ∀ value,
    carry codec (.str copy.fill.ctx.traceId) = .ok value → value.truthy = true
  apart : ∀ copy ∈ copies, ∀ other ∈ copies, copy.isPaired = true → other.isPaired = true →
    ∀ value same, carry codec (.str copy.fill.ctx.traceId) = .ok value →
      carry codec (.str other.fill.ctx.traceId) = .ok same →
        codec.runtime.str value = codec.runtime.str same →
          copy.fill.ctx.traceId = other.fill.ctx.traceId

/-- Trace ids that survive the bus are kept. -/
theorem TracesKept.ofSurvives {codec : Codec} {copies : List TradeCopy}
    (read : ∀ copy ∈ copies, (copy.data codec).isOk = true)
    (survive : ∀ copy ∈ copies, copy.isPaired = true → Survives codec copy.fill.ctx.traceId) :
    TracesKept codec copies where
  read := read
  truthy := by
    intro copy member paired value carried
    cases (carry_of_survives (survive copy member paired)).symm.trans carried
    exact (Bool.and_eq_true _ _ ▸ paired).2
  apart := by
    intro copy member other otherMember paired otherPaired value same carried otherCarried equal
    cases (carry_of_survives (survive copy member paired)).symm.trans carried
    cases (carry_of_survives (survive other otherMember otherPaired)).symm.trans otherCarried
    exact equal

/-- Closes are told apart by their trace ids. -/
def DistinctTraces (copies : List TradeCopy) : Prop :=
  ∀ copy ∈ copies, ∀ other ∈ copies, copy.isPaired = true → other.isPaired = true →
    copy.fill.ctx.traceId = other.fill.ctx.traceId → copy.fill.ctx = other.fill.ctx

instance (copies : List TradeCopy) : Decidable (DistinctTraces copies) :=
  inferInstanceAs (Decidable (∀ copy ∈ copies, ∀ other ∈ copies, copy.isPaired = true →
    other.isPaired = true → copy.fill.ctx.traceId = other.fill.ctx.traceId →
      copy.fill.ctx = other.fill.ctx))

/-- Between two copies of a close, fewer other closes are read than the gate remembers. -/
def CopiesNear (maxTraces : ℕ) (copies : List TradeCopy) : Prop :=
  ∀ before copy between again after, copies = before ++ copy :: (between ++ again :: after) →
    copy.isPaired = true → again.isPaired = true →
      again.fill.ctx.traceId = copy.fill.ctx.traceId →
        (∀ other ∈ between, other.isPaired = true →
          other.fill.ctx.traceId ≠ copy.fill.ctx.traceId) →
          ((between.filter TradeCopy.isPaired).map fun other =>
            other.fill.ctx.traceId).dedup.length < maxTraces

/-- The text of what a trace id comes back as. -/
def traceText (codec : Codec) (traceId : String) : String :=
  match carry codec (.str traceId) with
  | .ok value => codec.runtime.str value
  | .error _ => ""

section

variable {runtime : Runtime} {depth maxTraces : ℕ} {copies : List TradeCopy}
  (kept : TracesKept (Codec.ofRuntime runtime depth) copies)
  (prints : ∀ copy ∈ copies, copy.fill.closes = true →
    Json.FloatText runtime copy.fill.ctx.realizedPnl)

include kept prints

theorem TracesKept.key {copy : TradeCopy} (member : copy ∈ copies) :
    copy.key (Codec.ofRuntime runtime depth) =
      if copy.isPaired then
        some (traceText (Codec.ofRuntime runtime depth) copy.fill.ctx.traceId)
      else none := by
  have isRead := kept.read copy member
  cases data : copy.data (Codec.ofRuntime runtime depth) with
  | error raised => rw [data] at isRead; cases isRead
  | ok data' =>
      obtain ⟨value, carried, key⟩ := TradeCopy.key_of_read data (prints copy member)
      rw [key, traceText, carried]
      cases paired : copy.isPaired with
      | true =>
          have closes : copy.fill.closes = true := (Bool.and_eq_true _ _ ▸ paired).1
          rw [closes, kept.truthy copy member paired value carried]
          rfl
      | false =>
          rw [if_neg Bool.false_ne_true, if_neg]
          intro both
          obtain ⟨closes, truthy⟩ := Bool.and_eq_true _ _ ▸ both
          have empty : copy.fill.ctx.traceId = "" := by
            simpa [TradeCopy.isPaired, closes] using paired
          have plain : Plain "" := by decide
          rw [empty, carry_str, deserialize_of_plain _ plain] at carried
          cases carried
          cases truthy

theorem TracesKept.carried {copy : TradeCopy} (member : copy ∈ copies) :
    ∃ value, carry (Codec.ofRuntime runtime depth) (.str copy.fill.ctx.traceId) = .ok value ∧
      traceText (Codec.ofRuntime runtime depth) copy.fill.ctx.traceId = runtime.str value := by
  have isRead := kept.read copy member
  cases data : copy.data (Codec.ofRuntime runtime depth) with
  | error raised => rw [data] at isRead; cases isRead
  | ok data' =>
      obtain ⟨value, carried, -⟩ := TradeCopy.key_of_read data (prints copy member)
      refine ⟨value, carried, ?_⟩
      rw [traceText, carried]
      rfl

theorem TracesKept.same_iff {copy other : TradeCopy} (member : copy ∈ copies)
    (otherMember : other ∈ copies) (paired : copy.isPaired = true) :
    other.key (Codec.ofRuntime runtime depth) =
        some (traceText (Codec.ofRuntime runtime depth) copy.fill.ctx.traceId) ↔
      other.isPaired = true ∧ other.fill.ctx.traceId = copy.fill.ctx.traceId := by
  rw [kept.key prints otherMember]
  constructor
  · intro same
    split_ifs at same with otherPaired
    refine ⟨otherPaired, ?_⟩
    obtain ⟨value, carried, text⟩ := kept.carried prints member
    obtain ⟨otherValue, otherCarried, otherText⟩ := kept.carried prints otherMember
    refine kept.apart other otherMember copy member otherPaired paired _ _ otherCarried carried ?_
    exact otherText.symm.trans ((Option.some.inj same).trans text)
  · rintro ⟨otherPaired, same⟩
    rw [if_pos otherPaired, same]

/-- The keys of copies are the texts of the trace ids of the closes. -/
theorem TracesKept.keys {some : List TradeCopy} (among : some ⊆ copies) :
    some.filterMap (TradeCopy.key (Codec.ofRuntime runtime depth)) =
      ((some.filter TradeCopy.isPaired).map fun copy => copy.fill.ctx.traceId).map
        (traceText (Codec.ofRuntime runtime depth)) := by
  induction some with
  | nil => rfl
  | cons copy rest induction =>
      have key := kept.key prints (among List.mem_cons_self)
      have others := induction fun _ member => among (List.mem_cons_of_mem _ member)
      cases paired : copy.isPaired with
      | true =>
          rw [paired, if_pos rfl] at key
          rw [List.filterMap_cons_some key, List.filter_cons_of_pos paired, others]
          rfl
      | false =>
          rw [paired, if_neg Bool.false_ne_true] at key
          rw [List.filterMap_cons_none key, List.filter_cons_of_neg (by simp [paired]), others]

theorem TracesKept.near (near : CopiesNear maxTraces copies) :
    Recency.Near maxTraces (copies.filterMap (TradeCopy.key (Codec.ofRuntime runtime depth))) := by
  intro before held between after split last
  obtain ⟨first, tail, rfl, -, tailKeys⟩ := List.filterMap_eq_append_iff.mp split
  obtain ⟨quiet, copy, later, rfl, -, key, laterKeys⟩ := List.filterMap_eq_cons_iff.mp tailKeys
  obtain ⟨middle, final, rfl, rfl, finalKeys⟩ := List.filterMap_eq_append_iff.mp laterKeys
  obtain ⟨silent, again, rest, rfl, none, againKey, -⟩ := List.filterMap_eq_cons_iff.mp finalKeys
  have member : copy ∈ first ++ (quiet ++ copy :: (middle ++ (silent ++ again :: rest))) := by simp
  have againMember : again ∈ first ++ (quiet ++ copy :: (middle ++ (silent ++ again :: rest))) := by
    simp
  have inside : middle ++ silent ⊆
      first ++ (quiet ++ copy :: (middle ++ (silent ++ again :: rest))) := by
    intro other among
    rcases List.mem_append.mp among with early | late <;> simp [*]
  have ownKey := kept.key prints member
  rw [key] at ownKey
  split_ifs at ownKey with paired
  rw [ownKey] at againKey key
  obtain ⟨againPaired, same⟩ := (kept.same_iff prints member againMember paired).mp againKey
  have few := near (first ++ quiet) copy (middle ++ silent) again rest (by simp) paired againPaired
    same fun other among otherPaired otherSame => by
      have otherKey := (kept.same_iff prints member (inside among) paired).mpr
        ⟨otherPaired, otherSame⟩
      rcases List.mem_append.mp among with early | late
      · exact last (List.mem_filterMap.mpr ⟨other, early, otherKey.trans ownKey.symm⟩)
      · cases (none other late).symm.trans otherKey
  have keys := kept.keys prints inside
  rw [List.filterMap_append, List.filterMap_eq_nil_iff.mpr none, List.append_nil] at keys
  rw [keys]
  exact (Recency.length_dedup_map_le _ _).trans_lt few

/-- Whatever order the copies are read in, the gate lets each close through exactly once. -/
theorem closes_once (distinct : DistinctTraces copies) (near : CopiesNear maxTraces copies) :
    ExactlyOnce (Codec.ofRuntime runtime depth) maxTraces copies := by
  have keysNear := kept.near prints near
  constructor
  · intro copy member paired
    have key := (kept.same_iff prints member member paired).mpr ⟨paired, rfl⟩
    have once := Recency.countP_passed copies keysNear
      (List.mem_filterMap.mpr ⟨copy, member, key⟩)
    rw [letThrough_eq_passed kept.read, ← once]
    refine List.countP_congr fun other passes => ?_
    have otherMember := Recency.mem_of_mem_passed passes
    have same := kept.same_iff prints member otherMember paired
    simp only [Bool.and_eq_true, decide_eq_true_eq, same]
    constructor
    · rintro ⟨otherPaired, ctx⟩
      exact ⟨otherPaired, congrArg FillContext.traceId ctx⟩
    · rintro ⟨otherPaired, traceId⟩
      exact ⟨otherPaired, distinct other otherMember copy member otherPaired paired traceId⟩
  · rw [letThrough_eq_passed kept.read]
    have free : ∀ copy ∈ copies, (copy.key (Codec.ofRuntime runtime depth)).isNone =
        !copy.isPaired := by
      intro copy member
      rw [kept.key prints member]
      cases copy.isPaired <;> rfl
    have all := @Recency.filter_passed_eq String _ TradeCopy maxTraces
      (TradeCopy.key (Codec.ofRuntime runtime depth)) [] copies
    rw [List.filter_congr fun copy member => free copy (Recency.mem_of_mem_passed member),
      List.filter_congr free] at all
    exact all

end

theorem copiesNear_of_length {maxTraces : ℕ} {copies : List TradeCopy}
    (few : copies.length ≤ maxTraces) : CopiesNear maxTraces copies := by
  intro before copy between again after split paired againPaired same others
  have inside : between.length < copies.length := by
    rw [split]
    simp only [List.length_append, List.length_cons]
    omega
  calc ((between.filter TradeCopy.isPaired).map fun other =>
          other.fill.ctx.traceId).dedup.length
      ≤ ((between.filter TradeCopy.isPaired).map fun other => other.fill.ctx.traceId).length :=
        (List.dedup_sublist _).length_le
    _ = (between.filter TradeCopy.isPaired).length := List.length_map _
    _ ≤ between.length := List.length_filter_le _ _
    _ < maxTraces := inside.trans_le few

def firstClose : PublishedFill := .ofUnit "order-2" "trace-2" "sell" (4 / 5) (some (3 / 2))

def secondClose : PublishedFill := .ofUnit "order-3" "trace-3" "sell" (4 / 5) (some (3 / 2))

/-- The copies of two closes and of an opening fill, the first close read once more. -/
def closesRead : List TradeCopy :=
  [.performance (.ofUnit "order-1" "trace-1" "buy" (4 / 5) none) "m-1" "t-1",
    .completed firstClose rfl "m-2" "t-2", .performance secondClose "m-3" "t-3",
    .performance firstClose "m-4" "t-4", .completed secondClose rfl "m-5" "t-5",
    .completed firstClose rfl "m-2" "t-2"]

theorem closes_once_closesRead :
    ExactlyOnce (Codec.ofRuntime halfRuntime 900) 500 closesRead := by
  have half : Json.FloatText halfRuntime (3 / 2) := by decide +kernel
  refine closes_once (.ofSurvives (by decide +kernel) ?_) ?_ (by decide +kernel)
    (copiesNear_of_length (by decide))
  · intro copy member paired
    have id : copy.fill.ctx.traceId = "trace-2" ∨ copy.fill.ctx.traceId = "trace-3" := by
      revert copy
      decide
    rcases id with id | id
    · rw [id]
      exact ⟨by decide, by decide, fun looks => absurd looks (by decide)⟩
    · rw [id]
      exact ⟨by decide, by decide, fun looks => absurd looks (by decide)⟩
  · intro copy member closes
    have realized : copy.fill.ctx.realizedPnl = 3 / 2 := by
      revert copy
      decide +kernel
    exact realized ▸ half

/-- A trace id that reads `false` comes back as a truth value, and both copies of the close pass. -/
theorem falseTrace_twice :
    ¬∀ copies : List TradeCopy,
      (∀ copy ∈ copies, (copy.data (Codec.ofRuntime halfRuntime 900)).isOk = true) →
        DistinctTraces copies → CopiesNear maxTraces copies →
          ExactlyOnce (Codec.ofRuntime halfRuntime 900) maxTraces copies := by
  intro once
  let fill : PublishedFill := .ofUnit "order-2" "false" "sell" (4 / 5) (some (3 / 2))
  have single := (once [.performance fill "m-1" "t-1", .completed fill rfl "m-2" "t-2"]
    (by decide +kernel) (by decide +kernel) (copiesNear_of_length (by decide))).closes
      (.performance fill "m-1" "t-1") List.mem_cons_self rfl
  revert single
  decide +kernel

end TradingControl.Learning
