import TradingControl.Effects.History
import TradingControl.Learning.GradeAgent
import TradingControl.Python.OrderedDict

/-!
# Credits for tools

The grade agent remembers the tools of each decision by its trace, moves them to the symbol when the
order of the decision buys, and credits the profit of a close to the tools of both decisions.  It
reads the decisions, the executions and the two trade streams one message at a time.
-/

namespace TradingControl.Learning

open Effects Python

/-! ## What is published -/

/-- A decision, as far as the agent reads it: the name of each tool, or the empty text. -/
structure ToolDecision where
  traceId : String
  toolsUsed : List String

def ToolDecision.names (decision : ToolDecision) : List String :=
  decision.toolsUsed.filter fun name => name ≠ ""

/-- A decision, or the fill of an order. -/
inductive Publication where
  | decision (decision : ToolDecision)
  | fill (fill : PublishedFill)

namespace Publication

def decision? : Publication → Option ToolDecision
  | .decision made => some made
  | .fill _ => none

def fill? : Publication → Option PublishedFill
  | .decision _ => none
  | .fill made => some made

end Publication

/-- The decisions, in the order of their stream. -/
def decisionsOf (history : List Publication) : List ToolDecision :=
  history.filterMap Publication.decision?

/-- The fills, in the order of their streams. -/
def fillsOf (history : List Publication) : List PublishedFill :=
  history.filterMap Publication.fill?

/-- Names of the tools of the decision with a trace. -/
def toolsOf (history : List Publication) (traceId : String) : List String :=
  match (decisionsOf history).find? fun decision => decision.traceId = traceId with
  | some decision => decision.names
  | none => []

/-! ## Positions -/

def PublishedFill.buys (fill : PublishedFill) : Bool := lower fill.ctx.side = "buy"

/-- An open position: the fill that opened it, and how much is held. -/
structure Holding where
  entry : PublishedFill
  qty : ℚ

/-- A purchase opens a position or adds to it, a close takes from it. -/
def holdAfter (held : Option Holding) (fill : PublishedFill) : Option Holding :=
  if fill.buys then
    match held with
    | none => some ⟨fill, fill.ctx.qty⟩
    | some holding => some { holding with qty := holding.qty + fill.ctx.qty }
  else if fill.closes then
    match held with
    | none => none
    | some holding =>
        if holding.qty ≤ fill.ctx.qty then none
        else some { holding with qty := holding.qty - fill.ctx.qty }
  else held

def holding (fills : List PublishedFill) (symbol : String) : Option Holding :=
  (fills.filter fun fill => fill.ctx.symbol = symbol).foldl holdAfter none

/-- A close, and the fill that opened the position it closes. -/
def EntryOf (fills : List PublishedFill) (close entry : PublishedFill) : Prop :=
  close.closes = true ∧ ∃ before after qty, fills = before ++ close :: after ∧
    holding before close.ctx.symbol = some ⟨entry, qty⟩

/-! ## The agent -/

/-- A message that the agent reads. -/
inductive ToolRead where
  | decision (decision : ToolDecision)
  | event (delivery : Delivery)

namespace ToolRead

def decision? : ToolRead → Option ToolDecision
  | .decision made => some made
  | .event _ => none

def execution? : ToolRead → Option PublishedFill
  | .event (.execution fill) => some fill
  | _ => none

def performance? : ToolRead → Option PublishedFill
  | .event (.performance fill) => some fill
  | _ => none

def completed? : ToolRead → Option PublishedFill
  | .event (.completed fill _) => some fill
  | _ => none

end ToolRead

/-- The caches of the agent. -/
structure ToolAttribution where
  traceTools : Dict String (List String) := []
  entryTools : Dict String (List String) := []
  closeDedup : List String := []

namespace ToolAttribution

variable (agent : ToolAttribution)

/-- `_remember_decision_tools`. -/
def rememberDecisionTools (decision : ToolDecision) : ToolAttribution :=
  if decision.traceId = "" then agent
  else if decision.names = [] then agent
  else { agent with
    traceTools := Dict.remember 500 decision.traceId decision.names agent.traceTools }

/-- `_remember_entry_tools`. -/
def rememberEntryTools (fill : PublishedFill) : ToolAttribution :=
  if !fill.buys then agent
  else if fill.ctx.symbol = "" || fill.ctx.traceId = "" then agent
  else
    match agent.traceTools.lookup fill.ctx.traceId with
    | none => agent
    | some names =>
        if names = [] then agent
        else { agent with entryTools := Dict.remember 100 fill.ctx.symbol names agent.entryTools }

/-- `d.pop(key, None) if key else None`. -/
def pop (key : String) (items : Dict String (List String)) :
    Option (List String) × Dict String (List String) :=
  if key = "" then (none, items) else (items.lookup key, Dict.discard key items)

/-- `_attribute_pnl_to_tools`: the names and the profit that are recorded. -/
def attributePnlToTools (delivery : Delivery) : ToolAttribution × List (String × ℚ) :=
  match delivery.data.pnl.toFloat with
  | none => (agent, [])
  | some realizedPnl =>
      let (closingNames, traceTools) := pop delivery.fill.ctx.traceId agent.traceTools
      let (entryNames, entryTools) := pop delivery.fill.ctx.symbol agent.entryTools
      let names := fromKeys (closingNames.getD [] ++ entryNames.getD [])
      ({ agent with traceTools := traceTools, entryTools := entryTools },
        names.map fun name => (name, realizedPnl))

/-- `process`, as far as the tools go.  A text that is no number would raise. -/
def process : ToolRead → ToolAttribution × List (String × ℚ)
  | .decision decision => (agent.rememberDecisionTools decision, [])
  | .event delivery =>
      if delivery.isTrade then
        let (duplicate, seen) := isDuplicate agent.closeDedup delivery.data
        let agent := { agent with closeDedup := seen }
        if duplicate then (agent, [])
        else
          match delivery.data.pnl.toFloatOrZero with
          | none => (agent, [])
          | some _ => agent.attributePnlToTools delivery
      else
        match floatOrHalf delivery.data.confidence with
        | none => (agent, [])
        | some _ => (agent.rememberEntryTools delivery.fill, [])

end ToolAttribution

/-- A profit recorded for a tool, on the event of a close. -/
structure ToolCredit where
  close : FillContext
  tool : String
  realizedPnl : ℚ

/-- The agent, and what it has recorded. -/
structure ToolReading where
  agent : ToolAttribution := {}
  credits : List ToolCredit := []

namespace ToolReading

/-- What an event is about. -/
def creditsFor (read : ToolRead) (recorded : List (String × ℚ)) : List ToolCredit :=
  match read with
  | .decision _ => []
  | .event delivery => recorded.map fun (tool, pnl) => ⟨delivery.fill.ctx, tool, pnl⟩

def step (state : ToolReading) (read : ToolRead) : ToolReading :=
  let (agent, recorded) := state.agent.process read
  { agent := agent, credits := state.credits ++ creditsFor read recorded }

/-- The agent after it has read messages. -/
def after (reads : List ToolRead) : ToolReading := reads.foldl step {}

/-- What was recorded on the events of a close. -/
def creditsOf (state : ToolReading) (close : PublishedFill) : List (String × ℚ) :=
  (state.credits.filter fun credit => credit.close = close.ctx).map fun credit =>
    (credit.tool, credit.realizedPnl)

end ToolReading

/-! ## Interleavings -/

/-- Every stream is read in its own order. -/
structure Interleaves (history : List Publication) (reads : List ToolRead) : Prop where
  decisions : reads.filterMap ToolRead.decision? <+: decisionsOf history
  executions : reads.filterMap ToolRead.execution? <+: fillsOf history
  performance : reads.filterMap ToolRead.performance? <+: fillsOf history
  completed : reads.filterMap ToolRead.completed? <+:
    (fillsOf history).filter PublishedFill.closes

/-- Decisions, purchases and closes in a causal order, within the bounds of the caches. -/
structure Causal (history : List Publication) : Prop where
  /-- A trace is that of one decision. -/
  traces : ((decisionsOf history).map ToolDecision.traceId).Nodup
  named : ∀ decision ∈ decisionsOf history, decision.traceId ≠ ""
  symbols : ∀ fill ∈ fillsOf history, fill.ctx.symbol ≠ ""
  /-- A fill comes after its decision. -/
  decided : ∀ before fill after, history = before ++ .fill fill :: after →
    ∃ decision ∈ decisionsOf before, decision.traceId = fill.ctx.traceId
  /-- A fill buys, or it closes a position. -/
  longOnly : ∀ fill ∈ fillsOf history, fill.closes = !fill.buys
  /-- A close comes after the fill that opened its position. -/
  opened : ∀ close ∈ fillsOf history, close.closes = true →
    ∃ entry, EntryOf (fillsOf history) close entry
  fewDecisions : (decisionsOf history).length ≤ 500
  fewSymbols : ((fillsOf history).map fun fill => fill.ctx.symbol).dedup.length ≤ 100

/-- The event tells of a close. -/
def Delivery.tells (delivery : Delivery) (close : PublishedFill) : Prop :=
  delivery.isTrade = true ∧ delivery.fill = close

/-- Of every close that was read, the realized profit is recorded once for each tool of its own
decision and of the decision that opened its position. -/
def CreditsOnce (history : List Publication) (reads : List ToolRead) : Prop :=
  ∀ close entry, EntryOf (fillsOf history) close entry →
    (∃ delivery, .event delivery ∈ reads ∧ delivery.tells close) →
      ((ToolReading.after reads).creditsOf close).Perm
        (((toolsOf history close.ctx.traceId ++ toolsOf history entry.ctx.traceId).dedup).map
          fun tool => (tool, close.ctx.realizedPnl))

/-! ## Reads in time -/

def DecisionRead (before : List ToolRead) (traceId : String) : Prop :=
  ∃ decision, .decision decision ∈ before ∧ decision.traceId = traceId

/-- A message may be read now: a purchase after its decision and after the closes of its symbol that
were published before it, a close after its decision and after the purchase it closes. -/
def InTimeNow (history : List Publication) (before : List ToolRead) : ToolRead → Prop
  | .decision _ => True
  | .event (.execution fill) => fill.buys = true → DecisionRead before fill.ctx.traceId ∧
      ∀ earlier later, fillsOf history = earlier ++ fill :: later → ∀ close ∈ earlier,
        close.ctx.symbol = fill.ctx.symbol → close.closes = true →
          ∃ delivery, .event delivery ∈ before ∧ delivery.tells close
  | .event delivery => ∀ entry, EntryOf (fillsOf history) delivery.fill entry →
      DecisionRead before delivery.fill.ctx.traceId ∧ .event (.execution entry) ∈ before

/-- A fill opens a position of its own or closes all of one. -/
def WholeNow (before : List PublishedFill) (fill : PublishedFill) : Prop :=
  (fill.buys = true → holding before fill.ctx.symbol = none) ∧
    (fill.closes = true → holding (before ++ [fill]) fill.ctx.symbol = none)

/-- Every decision is filled once, every position is bought and closed by one fill each, and every
message is read in time. -/
structure InTime (history : List Publication) (reads : List ToolRead) : Prop where
  filledOnce : ((fillsOf history).map fun fill => fill.ctx.traceId).Nodup
  whole : Justified WholeNow (fillsOf history)
  reads : Justified (InTimeNow history) reads

end TradingControl.Learning

/-!
# Positions and streams behind the credits

A purchase of a flat symbol opens a position, which the next close of the symbol ends where it takes
all of it.  What is read of a stream was published on it, in that order.
-/

namespace TradingControl.Learning

open Effects Python

/-! ## Positions -/

section Positions

variable {fills earlier later : List PublishedFill} {symbol : String} {entry close : PublishedFill}
  {qty : ℚ}

theorem holding_concat (fills : List PublishedFill) (fill : PublishedFill) (symbol : String) :
    holding (fills ++ [fill]) symbol =
      if fill.ctx.symbol = symbol then holdAfter (holding fills symbol) fill
      else holding fills symbol := by
  rw [holding, holding, List.filter_append]
  by_cases same : fill.ctx.symbol = symbol <;> simp [same]

/-- What a fill makes of a position: it keeps the entry, opens a new one, or ends it. -/
theorem holdAfter_cases {held : Option Holding} {fill : PublishedFill} {after : Holding}
    (result : holdAfter held fill = some after) :
    (∃ before, held = some before ∧ before.entry = after.entry) ∨
      held = none ∧ fill.buys = true ∧ after = ⟨fill, fill.ctx.qty⟩ := by
  cases held with
  | none =>
      simp only [holdAfter] at result
      split at result
      · next buys => exact .inr ⟨rfl, buys, (Option.some.inj result).symm⟩
      · split at result <;> cases result
  | some before =>
      refine .inl ⟨before, rfl, ?_⟩
      simp only [holdAfter] at result
      split at result
      · obtain rfl := Option.some.inj result
        rfl
      · split at result
        · split at result
          · cases result
          · obtain rfl := Option.some.inj result
            rfl
        · obtain rfl := Option.some.inj result
          rfl

/-- A position that is opened from then on is opened by a purchase of the symbol. -/
theorem entry_mem_of_none (flat : holding earlier symbol = none)
    (holds : holding (earlier ++ later) symbol = some ⟨entry, qty⟩) :
    entry ∈ later ∧ entry.buys = true ∧ entry.ctx.symbol = symbol := by
  induction later using List.reverseRecOn generalizing qty with
  | nil =>
      rw [List.append_nil, flat] at holds
      cases holds
  | append_singleton later fill induction =>
      rw [← List.append_assoc, holding_concat] at holds
      have keep : ∀ {qty}, holding (earlier ++ later) symbol = some ⟨entry, qty⟩ →
          entry ∈ later ++ [fill] ∧ entry.buys = true ∧ entry.ctx.symbol = symbol := by
        intro qty held
        obtain ⟨member, facts⟩ := induction held
        exact ⟨List.mem_append_left _ member, facts⟩
      split at holds
      · next same =>
          rcases holdAfter_cases holds with ⟨before, held, sameEntry⟩ | ⟨-, buys, opened⟩
          · obtain ⟨entry', qty'⟩ := before
            obtain rfl : entry' = entry := sameEntry
            exact keep held
          · obtain rfl := congrArg Holding.entry opened
            exact ⟨List.mem_append_right _ (List.mem_singleton_self _), buys, same⟩
      · exact keep holds

theorem entry_mem (holds : holding fills symbol = some ⟨entry, qty⟩) :
    entry ∈ fills ∧ entry.buys = true ∧ entry.ctx.symbol = symbol :=
  @entry_mem_of_none [] fills symbol entry qty rfl holds

/-- A position stays as it is opened until a close. -/
theorem closed_or_held (holds : holding earlier symbol = some ⟨entry, qty⟩)
    (later : List PublishedFill) :
    (∃ qty, holding (earlier ++ later) symbol = some ⟨entry, qty⟩) ∨
      ∃ before close after qty, later = before ++ close :: after ∧ close.closes = true ∧
        close.ctx.symbol = symbol ∧ holding (earlier ++ before) symbol = some ⟨entry, qty⟩ := by
  induction later using List.reverseRecOn with
  | nil => exact .inl ⟨qty, by rwa [List.append_nil]⟩
  | append_singleton later fill induction =>
      rcases induction with ⟨held, isHeld⟩ | ⟨before, close, after, held, rfl, facts⟩
      · rw [← List.append_assoc, holding_concat, isHeld]
        by_cases same : fill.ctx.symbol = symbol
        · rw [if_pos same]
          cases closes : fill.closes with
          | true => exact .inr ⟨later, fill, [], held, rfl, closes, same, isHeld⟩
          | false =>
              left
              rw [holdAfter, closes]
              split
              · exact ⟨_, rfl⟩
              · exact ⟨_, rfl⟩
        · rw [if_neg same]
          exact .inl ⟨held, rfl⟩
      · exact .inr ⟨before, close, after ++ [fill], held, by simp, facts⟩

theorem EntryOf.entry_spec (entryOf : EntryOf fills close entry) :
    entry ∈ fills ∧ entry.buys = true ∧ entry.ctx.symbol = close.ctx.symbol := by
  obtain ⟨-, before, after, qty, rfl, holds⟩ := entryOf
  obtain ⟨member, facts⟩ := entry_mem holds
  exact ⟨List.mem_append_left _ member, facts⟩

theorem EntryOf.close_mem (entryOf : EntryOf fills close entry) : close ∈ fills := by
  obtain ⟨-, before, after, qty, rfl, -⟩ := entryOf
  simp

theorem eq_of_trace (once : (fills.map fun fill => fill.ctx.traceId).Nodup)
    {first second : PublishedFill} (firstMem : first ∈ fills) (secondMem : second ∈ fills)
    (same : first.ctx.traceId = second.ctx.traceId) : first = second :=
  List.inj_on_of_nodup_map once firstMem secondMem same

theorem not_mem_of_split (once : (fills.map fun fill => fill.ctx.traceId).Nodup)
    {fill : PublishedFill} (split : fills = earlier ++ fill :: later) : fill ∉ earlier := by
  intro member
  rw [split, List.map_append, List.map_cons] at once
  have disjoint := (List.nodup_append.mp once).2.2
  exact disjoint _ (List.mem_map_of_mem member) _ List.mem_cons_self rfl

/-- A position is closed once. -/
theorem EntryOf.unique (once : (fills.map fun fill => fill.ctx.traceId).Nodup)
    (whole : Justified WholeNow fills) {first second : PublishedFill}
    (firstOf : EntryOf fills first entry) (secondOf : EntryOf fills second entry) :
    first = second := by
  -- the earlier close leaves the symbol flat, so the entry would have to come again
  have apart : ∀ {close other : PublishedFill} {before between after : List PublishedFill}
      {qty qty' : ℚ}, close.closes = true →
      fills = before ++ close :: (between ++ other :: after) →
      holding before close.ctx.symbol = some ⟨entry, qty⟩ →
      holding (before ++ close :: between) other.ctx.symbol = some ⟨entry, qty'⟩ → False := by
    intro close other before between after qty qty' closes split held again
    have flat := (whole before close _ split).2 closes
    obtain ⟨isBefore, -, ownSymbol⟩ := entry_mem held
    obtain ⟨-, -, otherSymbol⟩ := entry_mem again
    rw [← otherSymbol, ownSymbol, ← List.singleton_append, ← List.append_assoc] at again
    have isBetween := (entry_mem_of_none flat again).1
    obtain ⟨left, right, rfl⟩ := List.append_of_mem isBetween
    refine @not_mem_of_split fills (before ++ close :: left) (right ++ other :: after) once entry ?_
      (List.mem_append_left _ isBefore)
    rw [split]
    simp
  obtain ⟨firstCloses, before, after, qty, firstSplit, firstHeld⟩ := firstOf
  obtain ⟨secondCloses, before', after', qty', secondSplit, secondHeld⟩ := secondOf
  rw [firstSplit] at secondSplit
  rcases List.append_eq_append_iff.mp secondSplit with ⟨between, isBefore, isRest⟩ |
    ⟨between, isBefore, isRest⟩
  · cases between with
    | nil => exact (List.cons.inj isRest).1
    | cons head between =>
        obtain ⟨rfl, rfl⟩ := List.cons.inj isRest
        rw [isBefore] at secondHeld
        exact (apart firstCloses firstSplit firstHeld secondHeld).elim
  · cases between with
    | nil => exact (List.cons.inj isRest).1.symm
    | cons head between =>
        obtain ⟨rfl, rfl⟩ := List.cons.inj isRest
        rw [isBefore] at firstHeld firstSplit
        have split : fills = before' ++ second :: (between ++ first :: after) := by
          rw [firstSplit]
          simp
        exact (apart secondCloses split secondHeld firstHeld).elim

/-- Between two purchases of a symbol the first position is closed. -/
theorem closed_between (whole : Justified WholeNow fills) {first second : PublishedFill}
    (split : fills = earlier ++ second :: later) (firstMem : first ∈ earlier)
    (firstBuys : first.buys = true) (secondBuys : second.buys = true)
    (same : first.ctx.symbol = second.ctx.symbol) :
    ∃ close ∈ earlier, close.closes = true ∧ close.ctx.symbol = second.ctx.symbol ∧
      EntryOf fills close first := by
  obtain ⟨before, between, rfl⟩ := List.append_of_mem firstMem
  have flat := (whole _ second later split).1 secondBuys
  have firstSplit : fills = before ++ first :: (between ++ second :: later) := by
    rw [split]
    simp
  have opened : holding (before ++ [first]) second.ctx.symbol = some ⟨first, first.ctx.qty⟩ := by
    have empty := (whole before first _ firstSplit).1 firstBuys
    rw [same] at empty
    rw [holding_concat, if_pos same, empty, holdAfter, if_pos firstBuys]
  rcases closed_or_held opened between with ⟨qty, held⟩ |
    ⟨left, close, right, qty, rfl, closes, isSymbol, held⟩
  · rw [List.append_assoc, List.singleton_append, flat] at held
    cases held
  · refine ⟨close, by simp, closes, isSymbol, closes, before ++ first :: left,
      right ++ second :: later, qty, by rw [firstSplit]; simp, ?_⟩
    rw [isSymbol]
    simpa using held

end Positions

/-! ## Messages -/

section Messages

variable {delivery : Delivery} {seen known : List String}

/-- The profit that the events of a close carry. -/
theorem pnl_of_closes (isTrade : delivery.isTrade = true)
    (closes : delivery.fill.closes = true) :
    delivery.data.pnl = .text (some delivery.fill.ctx.realizedPnl) := by
  cases delivery with
  | execution fill => cases isTrade
  | performance fill =>
      rw [Delivery.data, fill.pnlValue_closing closes]
      rfl
  | completed fill closes => rfl

theorem pnl_of_opens (isTrade : delivery.isTrade = true)
    (opens : delivery.fill.closes = false) : delivery.data.pnl = .absent := by
  cases delivery with
  | execution fill => cases isTrade
  | performance fill =>
      rw [Delivery.data, fill.pnlValue_opening opens]
      rfl
  | completed fill closes => cases closes.symm.trans opens

theorem data_traceId (delivery : Delivery) :
    delivery.data.traceId = delivery.fill.ctx.traceId := by
  cases delivery <;> rfl

theorem isDuplicate_close {data : EventData} {pnl : Option ℚ} (named : data.traceId ≠ "")
    (isPnl : data.pnl = .text pnl) (distinct : seen.Nodup) (within : seen ⊆ known)
    (isKnown : data.traceId ∈ known) (few : known.length ≤ maxTraces) :
    (isDuplicate seen data).1 = decide (data.traceId ∈ seen) ∧
      (isDuplicate seen data).2.Nodup ∧
      ∀ traceId, traceId ∈ (isDuplicate seen data).2 ↔
        traceId = data.traceId ∨ traceId ∈ seen := by
  have present : ¬(data.traceId = "" ∨ data.pnl = .absent) := by
    rw [isPnl]
    simp [named]
  rw [isDuplicate, if_neg present]
  by_cases again : data.traceId ∈ seen
  · rw [if_pos again]
    refine ⟨by simp [again], ?_, fun traceId => ?_⟩
    · refine List.nodup_append.mpr ⟨distinct.erase _, List.nodup_singleton _, ?_⟩
      intro first firstMem second secondMem same
      rw [List.mem_singleton.mp secondMem] at same
      exact (distinct.mem_erase_iff.mp firstMem).1 same
    · by_cases same : traceId = data.traceId
      · simp [same]
      · simp [same, List.mem_erase_of_ne]
  · rw [if_neg again]
    have all : (seen ++ [data.traceId]).Nodup := by
      refine List.nodup_append.mpr ⟨distinct, List.nodup_singleton _, ?_⟩
      rintro first firstMem second secondMem rfl
      exact again (List.mem_singleton.mp secondMem ▸ firstMem)
    have contained : seen ++ [data.traceId] ⊆ known :=
      List.append_subset.mpr ⟨within, by simpa using isKnown⟩
    have fits : (seen ++ [data.traceId]).length ≤ maxTraces :=
      ((List.subperm_of_subset all contained).length_le).trans few
    dsimp only
    rw [lastItems_of_length_le fits]
    exact ⟨by simp [again], all, fun traceId => by simp [or_comm]⟩

end Messages

/-! ## Histories -/

section Histories

variable {history : List Publication} {reads : List ToolRead}

theorem Causal.toolsOf_eq (causal : Causal history) {decision : ToolDecision}
    (member : decision ∈ decisionsOf history) :
    toolsOf history decision.traceId = decision.names := by
  rw [toolsOf]
  cases found : (decisionsOf history).find? fun other =>
      decide (other.traceId = decision.traceId) with
  | none =>
      have absent := List.find?_eq_none.mp found decision member
      simp at absent
  | some other =>
      have same : other.traceId = decision.traceId := by simpa using List.find?_some found
      exact congrArg ToolDecision.names
        (List.inj_on_of_nodup_map causal.traces (List.mem_of_find?_eq_some found) member same)

theorem fillsOf_split {before after : List PublishedFill} {fill : PublishedFill}
    (split : fillsOf history = before ++ fill :: after) :
    ∃ earlier later, history = earlier ++ .fill fill :: later ∧ fillsOf earlier = before := by
  induction history generalizing before with
  | nil => simp [fillsOf] at split
  | cons publication rest induction =>
      cases publication with
      | decision made =>
          have rest_split : fillsOf rest = before ++ fill :: after := split
          obtain ⟨earlier, later, rfl, isBefore⟩ := induction rest_split
          exact ⟨.decision made :: earlier, later, rfl, isBefore⟩
      | fill made =>
          have cons_split : made :: fillsOf rest = before ++ fill :: after := split
          cases before with
          | nil =>
              obtain ⟨rfl, -⟩ := List.cons.inj cons_split
              exact ⟨[], rest, rfl, rfl⟩
          | cons first before =>
              obtain ⟨rfl, rest_split⟩ := List.cons.inj cons_split
              obtain ⟨earlier, later, rfl, isBefore⟩ := induction rest_split
              exact ⟨.fill made :: earlier, later, rfl, congrArg (made :: ·) isBefore⟩

theorem Causal.decided_mem (causal : Causal history) {fill : PublishedFill}
    (member : fill ∈ fillsOf history) :
    fill.ctx.traceId ∈ (decisionsOf history).map ToolDecision.traceId := by
  obtain ⟨before, after, split⟩ := List.append_of_mem member
  obtain ⟨earlier, later, rfl, -⟩ := fillsOf_split split
  obtain ⟨decision, isDecision, same⟩ := causal.decided earlier fill later rfl
  rw [← same]
  refine List.mem_map_of_mem ?_
  rw [decisionsOf, List.filterMap_append]
  exact List.mem_append_left _ isDecision

theorem Causal.named_fill (causal : Causal history) {fill : PublishedFill}
    (member : fill ∈ fillsOf history) : fill.ctx.traceId ≠ "" := by
  obtain ⟨decision, isDecision, same⟩ := List.mem_map.mp (causal.decided_mem member)
  rw [← same]
  exact causal.named decision isDecision

theorem Interleaves.decision_mem (interleaves : Interleaves history reads) {decision : ToolDecision}
    (member : .decision decision ∈ reads) : decision ∈ decisionsOf history :=
  interleaves.decisions.subset (List.mem_filterMap.mpr ⟨_, member, rfl⟩)

theorem Interleaves.fill_mem (interleaves : Interleaves history reads) {delivery : Delivery}
    (member : .event delivery ∈ reads) : delivery.fill ∈ fillsOf history := by
  cases delivery with
  | execution fill =>
      exact interleaves.executions.subset (List.mem_filterMap.mpr ⟨_, member, rfl⟩)
  | performance fill =>
      exact interleaves.performance.subset (List.mem_filterMap.mpr ⟨_, member, rfl⟩)
  | completed fill closes =>
      exact (List.mem_filter.mp (interleaves.completed.subset
        (List.mem_filterMap.mpr ⟨_, member, rfl⟩))).1

theorem Interleaves.last_mem {delivery : Delivery}
    (interleaves : Interleaves history (reads ++ [.event delivery])) :
    delivery.fill ∈ fillsOf history :=
  interleaves.fill_mem (List.mem_append_right _ (List.mem_singleton_self _))

theorem Interleaves.of_append {later : List ToolRead}
    (interleaves : Interleaves history (reads ++ later)) : Interleaves history reads where
  decisions := by
    have both := interleaves.decisions
    rw [List.filterMap_append] at both
    exact (List.prefix_append _ _).trans both
  executions := by
    have both := interleaves.executions
    rw [List.filterMap_append] at both
    exact (List.prefix_append _ _).trans both
  performance := by
    have both := interleaves.performance
    rw [List.filterMap_append] at both
    exact (List.prefix_append _ _).trans both
  completed := by
    have both := interleaves.completed
    rw [List.filterMap_append] at both
    exact (List.prefix_append _ _).trans both

/-- The purchases read before come before it in the stream. -/
theorem Interleaves.execution_split {fill : PublishedFill}
    (interleaves : Interleaves history (reads ++ [.event (.execution fill)])) :
    ∃ later, fillsOf history = reads.filterMap ToolRead.execution? ++ fill :: later := by
  obtain ⟨later, split⟩ := interleaves.executions
  refine ⟨later, ?_⟩
  rw [← split, List.filterMap_append]
  simp [ToolRead.execution?]

theorem InTime.of_append {later : List ToolRead} (inTime : InTime history (reads ++ later)) :
    InTime history reads where
  filledOnce := inTime.filledOnce
  whole := inTime.whole
  reads before read after split := inTime.reads before read (after ++ later) (by rw [split]; simp)

end Histories

end TradingControl.Learning
