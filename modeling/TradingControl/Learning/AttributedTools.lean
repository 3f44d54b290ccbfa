import TradingControl.Learning.ToolCaches

/-!
# Credits for tools that are read in time

The caches link a close to its two decisions through whatever was read before it.  They do so
without a mistake while every position is bought and closed by one fill each and every message is
read in time.  The second close of a position finds nothing to credit.
-/

namespace TradingControl.Learning

open Effects Python

-- the lemmas about bounded dictionaries say all there is to know
attribute [local irreducible] Dict.remember

/-! ## Steps -/

section Steps

variable {history : List Publication} {reads : List ToolRead} {agent : ToolAttribution}
  {delivery : Delivery}

theorem process_close (isTrade : delivery.isTrade = true) (closes : delivery.fill.closes = true)
    (named : delivery.fill.ctx.traceId ≠ "") (symbol : delivery.fill.ctx.symbol ≠ "")
    (fresh : (isDuplicate agent.closeDedup delivery.data).1 = false) :
    agent.process (.event delivery) =
      ({ traceTools := Dict.discard delivery.fill.ctx.traceId agent.traceTools
         entryTools := Dict.discard delivery.fill.ctx.symbol agent.entryTools
         closeDedup := (isDuplicate agent.closeDedup delivery.data).2 },
        (fromKeys ((agent.traceTools.lookup delivery.fill.ctx.traceId).getD [] ++
          (agent.entryTools.lookup delivery.fill.ctx.symbol).getD [])).map fun name =>
            (name, delivery.fill.ctx.realizedPnl)) := by
  have pnl := pnl_of_closes isTrade closes
  simp [ToolAttribution.process, isTrade, fresh, pnl, Scalar.toFloatOrZero, Scalar.truthy,
    Scalar.toFloat, ToolAttribution.attributePnlToTools, ToolAttribution.pop, named, symbol]

theorem process_again (isTrade : delivery.isTrade = true)
    (again : (isDuplicate agent.closeDedup delivery.data).1 = true) :
    agent.process (.event delivery) =
      ({ agent with closeDedup := (isDuplicate agent.closeDedup delivery.data).2 }, []) := by
  simp [ToolAttribution.process, isTrade, again]

theorem process_opening (isTrade : delivery.isTrade = true)
    (opens : delivery.fill.closes = false) :
    agent.process (.event delivery) = (agent, []) := by
  have pnl := pnl_of_opens isTrade opens
  simp [ToolAttribution.process, isTrade, isDuplicate_opening opens, pnl, Scalar.toFloatOrZero,
    Scalar.truthy, Scalar.toFloat, ToolAttribution.attributePnlToTools]

theorem process_execution (fill : PublishedFill) :
    agent.process (.event (.execution fill)) = (agent.rememberEntryTools fill, []) := by
  simp only [ToolAttribution.process, Delivery.isTrade, Bool.false_eq_true, if_false]
  rfl

/-- What has been credited: the tools of both decisions for a close that was seen, and nothing for
another. -/
def Settled (history : List Publication) (state : ToolReading) : Prop :=
  ∀ close entry, EntryOf (fillsOf history) close entry → state.creditsOf close =
    if close.ctx.traceId ∈ state.agent.closeDedup then
      (fromKeys (toolsOf history close.ctx.traceId ++ toolsOf history entry.ctx.traceId)).map
        fun tool => (tool, close.ctx.realizedPnl)
    else []

theorem creditsOf_step (state : ToolReading) (delivery : Delivery) (close : PublishedFill) :
    (state.step (.event delivery)).creditsOf close = state.creditsOf close ++
      if delivery.fill.ctx = close.ctx then (state.agent.process (.event delivery)).2 else [] := by
  simp only [ToolReading.step, ToolReading.creditsOf, ToolReading.creditsFor, List.filter_append,
    List.map_append]
  congr 1
  by_cases same : delivery.fill.ctx = close.ctx
  · rw [if_pos same]
    simp [List.filter_map, Function.comp_def, same]
  · rw [if_neg same]
    simp [List.filter_map, Function.comp_def, same]

theorem creditsOf_decision (state : ToolReading) (decision : ToolDecision)
    (close : PublishedFill) :
    (state.step (.decision decision)).creditsOf close = state.creditsOf close := by
  simp [ToolReading.step, ToolReading.creditsOf, ToolReading.creditsFor]

theorem Settled.of_nothing {state : ToolReading} (settled : Settled history state)
    {read : ToolRead} (nothing : ∀ close, (state.step read).creditsOf close = state.creditsOf close)
    (same : ∀ traceId, traceId ∈ (state.step read).agent.closeDedup ↔
      traceId ∈ state.agent.closeDedup) : Settled history (state.step read) := by
  intro close entry isEntry
  rw [nothing, settled close entry isEntry]
  simp only [same]

theorem closeDedup_rememberDecisionTools (agent : ToolAttribution) (decision : ToolDecision) :
    (agent.rememberDecisionTools decision).closeDedup = agent.closeDedup := by
  rw [ToolAttribution.rememberDecisionTools]
  split_ifs <;> rfl

theorem closeDedup_rememberEntryTools (agent : ToolAttribution) (fill : PublishedFill) :
    (agent.rememberEntryTools fill).closeDedup = agent.closeDedup := by
  rw [ToolAttribution.rememberEntryTools]
  split_ifs
  · rfl
  · rfl
  · cases agent.traceTools.lookup fill.ctx.traceId with
    | none => rfl
    | some names =>
        dsimp only
        split_ifs <;> rfl

/-- The caches and the credits are right after messages. -/
def Right (history : List Publication) (reads : List ToolRead) (state : ToolReading) : Prop :=
  Remembers history reads state.agent ∧ Settled history state

variable {state : ToolReading}

theorem creditsOf_nothing {after : ToolAttribution}
    (process_eq : state.agent.process (.event delivery) = (after, [])) (close : PublishedFill) :
    (state.step (.event delivery)).creditsOf close = state.creditsOf close := by
  rw [creditsOf_step, process_eq, ite_self, List.append_nil]

theorem right_decision (causal : Causal history) {decision : ToolDecision}
    (interleaves : Interleaves history (reads ++ [.decision decision]))
    (right : Right history reads state) :
    Right history (reads ++ [.decision decision]) (state.step (.decision decision)) := by
  have member := interleaves.decision_mem
    (List.mem_append_right reads (List.mem_singleton_self (ToolRead.decision decision)))
  refine ⟨right.1.decision causal member, right.2.of_nothing
    (creditsOf_decision state decision) fun traceId => ?_⟩
  exact iff_of_eq (congrArg (traceId ∈ ·) (closeDedup_rememberDecisionTools _ decision))

theorem right_execution (causal : Causal history) {fill : PublishedFill}
    (interleaves : Interleaves history (reads ++ [.event (.execution fill)]))
    (inTime : InTime history (reads ++ [.event (.execution fill)]))
    (right : Right history reads state) :
    Right history (reads ++ [.event (.execution fill)])
      (state.step (.event (.execution fill))) := by
  obtain ⟨remembers, settled⟩ := right
  have process_eq := @process_execution state.agent fill
  have agent_eq : (state.step (.event (.execution fill))).agent =
      state.agent.rememberEntryTools fill := congrArg Prod.fst process_eq
  refine ⟨?_, settled.of_nothing (creditsOf_nothing process_eq) fun traceId => ?_⟩
  · rw [agent_eq]
    cases buys : fill.buys with
    | true => exact remembers.purchase causal interleaves inTime buys
    | false =>
        have unchanged : state.agent.rememberEntryTools fill = state.agent := by
          rw [ToolAttribution.rememberEntryTools, buys]
          rfl
        rw [unchanged]
        refine remembers.skip (fun trade => by cases trade) fun other same => ?_
        rwa [← Delivery.execution.inj same]
  · rw [agent_eq, closeDedup_rememberEntryTools]

theorem right_opening (isTrade : delivery.isTrade = true) (opens : delivery.fill.closes = false)
    (right : Right history reads state) :
    Right history (reads ++ [.event delivery]) (state.step (.event delivery)) := by
  obtain ⟨remembers, settled⟩ := right
  have process_eq := @process_opening state.agent delivery isTrade opens
  have agent_eq : (state.step (.event delivery)).agent = state.agent :=
    congrArg Prod.fst process_eq
  refine ⟨?_, settled.of_nothing (creditsOf_nothing process_eq) fun traceId => by rw [agent_eq]⟩
  rw [agent_eq]
  refine remembers.skip (fun _ => opens) fun fill same => ?_
  rw [same] at isTrade
  cases isTrade

/-- Whether a close has been seen, and which ones have been after it. -/
theorem Remembers.isDuplicate_eq {agent : ToolAttribution} (causal : Causal history)
    (interleaves : Interleaves history (reads ++ [.event delivery]))
    (isTrade : delivery.isTrade = true) (closes : delivery.fill.closes = true)
    (remembers : Remembers history reads agent) :
    (isDuplicate agent.closeDedup delivery.data).1 =
        decide (delivery.fill.ctx.traceId ∈ agent.closeDedup) ∧
      (isDuplicate agent.closeDedup delivery.data).2.Nodup ∧
      ∀ traceId, traceId ∈ (isDuplicate agent.closeDedup delivery.data).2 ↔
        traceId = delivery.fill.ctx.traceId ∨ traceId ∈ agent.closeDedup := by
  have isFill : delivery.fill ∈ fillsOf history := interleaves.last_mem
  have traceId_eq := data_traceId delivery
  have result := @isDuplicate_close agent.closeDedup _ _ _
    (traceId_eq ▸ causal.named_fill isFill) (pnl_of_closes isTrade closes) remembers.seenDistinct
    (remembers.seen_subset causal interleaves.of_append) (traceId_eq ▸ causal.decided_mem isFill)
    (by rw [List.length_map]; exact causal.fewDecisions)
  rwa [traceId_eq] at result

theorem right_again (causal : Causal history)
    (interleaves : Interleaves history (reads ++ [.event delivery]))
    (isTrade : delivery.isTrade = true) (closes : delivery.fill.closes = true)
    (isSeen : delivery.fill.ctx.traceId ∈ state.agent.closeDedup)
    (right : Right history reads state) :
    Right history (reads ++ [.event delivery]) (state.step (.event delivery)) := by
  obtain ⟨remembers, settled⟩ := right
  obtain ⟨isAgain, distinct, added⟩ :=
    remembers.isDuplicate_eq causal interleaves isTrade closes
  rw [decide_eq_true isSeen] at isAgain
  have process_eq := @process_again state.agent delivery isTrade isAgain
  have agent_eq : (state.step (.event delivery)).agent = { state.agent with
      closeDedup := (isDuplicate state.agent.closeDedup delivery.data).2 } :=
    congrArg Prod.fst process_eq
  have same : ∀ traceId, traceId ∈ (isDuplicate state.agent.closeDedup delivery.data).2 ↔
      traceId ∈ state.agent.closeDedup := by
    intro traceId
    rw [added]
    exact ⟨fun either => either.elim (fun own => own ▸ isSeen) id, .inr⟩
  refine ⟨?_, settled.of_nothing (creditsOf_nothing process_eq) fun traceId => by
    rw [agent_eq]
    exact same traceId⟩
  rw [agent_eq]
  exact remembers.again distinct isSeen same isTrade

/-- The first event of a close, which is read after both decisions and after the purchase. -/
theorem right_first (causal : Causal history)
    (interleaves : Interleaves history (reads ++ [.event delivery]))
    (inTime : InTime history (reads ++ [.event delivery])) (isTrade : delivery.isTrade = true)
    (closes : delivery.fill.closes = true)
    (fresh : delivery.fill.ctx.traceId ∉ state.agent.closeDedup)
    (right : Right history reads state) :
    Right history (reads ++ [.event delivery]) (state.step (.event delivery)) := by
  obtain ⟨remembers, settled⟩ := right
  have isFill : delivery.fill ∈ fillsOf history := interleaves.last_mem
  obtain ⟨isNew, distinct, added⟩ := remembers.isDuplicate_eq causal interleaves isTrade closes
  rw [decide_eq_false fresh] at isNew
  have process_eq := process_close isTrade closes (causal.named_fill isFill)
    (causal.symbols _ isFill) isNew
  have agent_eq : (state.step (.event delivery)).agent =
      { traceTools := Dict.discard delivery.fill.ctx.traceId state.agent.traceTools
        entryTools := Dict.discard delivery.fill.ctx.symbol state.agent.entryTools
        closeDedup := (isDuplicate state.agent.closeDedup delivery.data).2 } :=
    congrArg Prod.fst process_eq
  have inTimeNow : ∀ entry, EntryOf (fillsOf history) delivery.fill entry →
      DecisionRead reads delivery.fill.ctx.traceId ∧
        ToolRead.event (.execution entry) ∈ reads := by
    have now := inTime.reads reads _ [] rfl
    cases delivery with
    | execution fill => cases isTrade
    | performance fill | completed fill closes => exact now
  obtain ⟨entry, isEntry⟩ := causal.opened _ isFill closes
  refine ⟨?_, fun close entry isEntry => ?_⟩
  · rw [agent_eq]
    exact remembers.close interleaves inTime.filledOnce inTime.whole isTrade closes isEntry
      (inTimeNow entry isEntry).2 fresh distinct added
  · have seen_iff : ∀ traceId, traceId ∈ (state.step (.event delivery)).agent.closeDedup ↔
        traceId = delivery.fill.ctx.traceId ∨ traceId ∈ state.agent.closeDedup := by
      intro traceId
      rw [← added]
      exact iff_of_eq (congrArg (traceId ∈ ·) (congrArg ToolAttribution.closeDedup agent_eq))
    rw [creditsOf_step, settled close entry isEntry]
    by_cases own : delivery.fill = close
    · subst own
      obtain ⟨decisionRead, entryRead⟩ := inTimeNow entry isEntry
      rw [if_neg fresh, List.nil_append, if_pos rfl, process_eq,
        if_pos ((seen_iff _).mpr (.inl rfl)), remembers.closing_tools decisionRead fresh,
        (remembers.entry_tools inTime.filledOnce inTime.whole isEntry entryRead fresh).2]
    · have otherTrace : close.ctx.traceId ≠ delivery.fill.ctx.traceId := by
        intro same
        exact own (eq_of_trace inTime.filledOnce isFill isEntry.close_mem same.symm)
      have otherCtx : delivery.fill.ctx ≠ close.ctx := by
        intro same
        exact otherTrace (congrArg FillContext.traceId same).symm
      rw [if_neg otherCtx, List.append_nil]
      simp only [seen_iff, otherTrace, false_or]

/-- A message that is read in time keeps the caches and the credits right. -/
theorem right_step {read : ToolRead} (causal : Causal history)
    (interleaves : Interleaves history (reads ++ [read]))
    (inTime : InTime history (reads ++ [read])) (right : Right history reads state) :
    Right history (reads ++ [read]) (state.step read) := by
  cases read with
  | decision decision => exact right_decision causal interleaves right
  | event delivery =>
      cases isTrade : delivery.isTrade with
      | false =>
          cases delivery with
          | execution fill => exact right_execution causal interleaves inTime right
          | performance fill | completed fill closes => cases isTrade
      | true =>
          cases closes : delivery.fill.closes with
          | false => exact right_opening isTrade closes right
          | true =>
              by_cases isSeen : delivery.fill.ctx.traceId ∈ state.agent.closeDedup
              · exact right_again causal interleaves isTrade closes isSeen right
              · exact right_first causal interleaves inTime isTrade closes isSeen right

end Steps

/-! ## Runs -/

/-- After messages that were read in time, the caches and the credits are right. -/
theorem right_after {history : List Publication} {reads : List ToolRead}
    (causal : Causal history) (interleaves : Interleaves history reads)
    (inTime : InTime history reads) : Right history reads (ToolReading.after reads) := by
  induction reads using List.reverseRecOn with
  | nil => exact ⟨remembers_start history, fun close entry _ => rfl⟩
  | append_singleton reads read induction =>
      have right := induction interleaves.of_append inTime.of_append
      have after_eq : ToolReading.after (reads ++ [read]) =
          (ToolReading.after reads).step read := by
        simp [ToolReading.after]
      rw [after_eq]
      exact right_step causal interleaves inTime right

/-- Whatever order the streams are read in, every close credits each tool of its two decisions once
while all is read in time. -/
theorem creditsOnce_of_inTime {history : List Publication} {reads : List ToolRead}
    (causal : Causal history) (interleaves : Interleaves history reads)
    (inTime : InTime history reads) : CreditsOnce history reads := by
  rintro close entry isEntry ⟨delivery, isRead, isTrade, rfl⟩
  obtain ⟨remembers, settled⟩ := right_after causal interleaves inTime
  have isSeen := (remembers.seen delivery.fill.ctx.traceId).mpr
    ⟨delivery, isRead, isTrade, isEntry.1, rfl⟩
  rw [settled _ entry isEntry, if_pos isSeen]
  exact (fromKeys_perm_dedup _).map _

/-! ## Reading in publish order -/

def inPublishOrder (history : List Publication) : List ToolRead :=
  history.flatMap fun
    | .decision decision => [.decision decision]
    | .fill fill => fill.deliveries.map .event

theorem interleaves_inPublishOrder (history : List Publication) :
    Interleaves history (inPublishOrder history) := by
  have all : (inPublishOrder history).filterMap ToolRead.decision? = decisionsOf history ∧
      (inPublishOrder history).filterMap ToolRead.execution? = fillsOf history ∧
      (inPublishOrder history).filterMap ToolRead.performance? = fillsOf history ∧
      (inPublishOrder history).filterMap ToolRead.completed? =
        (fillsOf history).filter PublishedFill.closes := by
    induction history with
    | nil => exact ⟨rfl, rfl, rfl, rfl⟩
    | cons publication history induction =>
        obtain ⟨decisions, executions, performance, completed⟩ := induction
        cases publication with
        | decision made =>
            exact ⟨congrArg (made :: ·) decisions, executions, performance, completed⟩
        | fill made =>
            have split : inPublishOrder (.fill made :: history) =
              made.deliveries.map .event ++ inPublishOrder history := rfl
            have fills : fillsOf (.fill made :: history) = made :: fillsOf history := rfl
            have same : decisionsOf (.fill made :: history) = decisionsOf history := rfl
            rw [split, fills, same]
            simp only [List.filterMap_append, decisions, executions, performance, completed]
            by_cases closes : made.closes = true
            · rw [PublishedFill.deliveries, dif_pos closes, List.filter_cons_of_pos closes]
              exact ⟨rfl, rfl, rfl, rfl⟩
            · rw [PublishedFill.deliveries, dif_neg closes, List.filter_cons_of_neg closes]
              exact ⟨rfl, rfl, rfl, rfl⟩
  obtain ⟨decisions, executions, performance, completed⟩ := all
  exact ⟨decisions ▸ List.prefix_rfl, executions ▸ List.prefix_rfl, performance ▸ List.prefix_rfl,
    completed ▸ List.prefix_rfl⟩

/-- A publication comes after the decision it follows. -/
def Decided (before : List Publication) : Publication → Prop
  | .decision _ => True
  | .fill fill => ∃ decision ∈ decisionsOf before, decision.traceId = fill.ctx.traceId

/-! ## Whole closes -/

/-- A fill that takes another quantity. -/
def PublishedFill.sized (fill : PublishedFill) (qty : ℚ) : PublishedFill where
  ctx := { fill.ctx with qty := qty }
  realizes := fill.realizes

/-- A purchase of as many units. -/
def bought (qty : ℚ) : PublishedFill :=
  (PublishedFill.ofUnit "order-1" "trace-1" "buy" (4 / 5) none).sized qty

def firstSale : PublishedFill := .ofUnit "order-2" "trace-2" "sell" (4 / 5) (some 5)

/-- A position of one unit that is closed. -/
def wholeClose : List Publication :=
  [.decision ⟨"trace-1", ["price_history"]⟩, .fill (bought 1),
    .decision ⟨"trace-2", ["news"]⟩, .fill firstSale]

theorem mem_fillsOf_wholeClose {fill : PublishedFill} (member : fill ∈ fillsOf wholeClose) :
    bought 1 = fill ∨ firstSale = fill := by
  simpa [fillsOf, wholeClose, Publication.fill?] using member

theorem causal_wholeClose : Causal wholeClose where
  traces := by decide
  named := by decide
  symbols := by
    intro fill member
    obtain rfl | rfl := mem_fillsOf_wholeClose member
    all_goals exact of_decide_eq_true rfl
  decided := by
    have steps : Justified Decided wholeClose :=
      (((justified_nil.concat trivial).concat ⟨_, .head _, rfl⟩).concat trivial).concat
        ⟨_, .tail _ (.head _), rfl⟩
    exact fun before fill after split => steps before _ after split
  longOnly := by
    intro fill member
    obtain rfl | rfl := mem_fillsOf_wholeClose member
    all_goals with_unfolding_all rfl
  opened := by
    intro close member closes
    obtain rfl | rfl := mem_fillsOf_wholeClose member
    · cases closes
    · exact ⟨bought 1, rfl, [bought 1], [], 1, rfl, by with_unfolding_all rfl⟩
  fewDecisions := by decide
  fewSymbols := by decide

theorem inTime_wholeClose : InTime wholeClose (inPublishOrder wholeClose) where
  filledOnce := by decide
  whole := by
    have opened : WholeNow [] (bought 1) := ⟨fun _ => rfl, fun closes => nomatch closes⟩
    have closed : WholeNow [bought 1] firstSale :=
      ⟨fun buys => absurd buys (by decide +kernel), fun _ => by with_unfolding_all rfl⟩
    exact (justified_nil.concat opened).concat closed
  reads := by
    have noClose : ∀ entry, ¬EntryOf (fillsOf wholeClose) (bought 1) entry :=
      fun entry isEntry => nomatch isEntry.1
    have isBought : ∀ entry, EntryOf (fillsOf wholeClose) firstSale entry → bought 1 = entry := by
      intro entry isEntry
      obtain ⟨member, buys, -⟩ := isEntry.entry_spec
      obtain same | rfl := mem_fillsOf_wholeClose member
      · exact same
      · exact absurd buys (by decide +kernel)
    have first : ∀ earlier later, fillsOf wholeClose = earlier ++ bought 1 :: later →
        earlier = [] := by
      intro earlier later split
      cases earlier with
      | nil => rfl
      | cons fill earlier =>
          obtain ⟨rfl, -⟩ := List.cons.inj split
          exact absurd List.mem_cons_self (not_mem_of_split (by decide) split)
    have noPurchase : ¬firstSale.buys = true := by decide +kernel
    -- the closing events come after both decisions and after the purchase
    have sold : ∀ (delivery : Delivery) (later : List ToolRead), delivery.fill = firstSale →
        delivery.isTrade = true → InTimeNow wholeClose
          ((.decision ⟨"trace-1", ["price_history"]⟩ :: .event (.execution (bought 1)) ::
            .event (.performance (bought 1)) :: .decision ⟨"trace-2", ["news"]⟩ :: later))
          (.event delivery) := by
      intro delivery later isSale isTrade
      cases delivery with
      | execution fill => cases isTrade
      | performance fill | completed fill closes =>
          obtain rfl : fill = firstSale := isSale
          intro entry isEntry
          obtain rfl := isBought entry isEntry
          exact ⟨⟨_, .tail _ (.tail _ (.tail _ (.head _))), rfl⟩, .tail _ (.head _)⟩
    have purchase : InTimeNow wholeClose [.decision ⟨"trace-1", ["price_history"]⟩]
        (.event (.execution (bought 1))) := by
      refine fun _ => ⟨⟨_, .head _, rfl⟩, fun earlier later split close isEarlier => ?_⟩
      rw [first earlier later split] at isEarlier
      cases isEarlier
    have opening : ∀ before, InTimeNow wholeClose before (.event (.performance (bought 1))) :=
      fun _ entry isEntry => (noClose entry isEntry).elim
    have sale : ∀ before, InTimeNow wholeClose before (.event (.execution firstSale)) :=
      fun _ buys => (noPurchase buys).elim
    have decided : ∀ before decision, InTimeNow wholeClose before (.decision decision) :=
      fun _ _ => trivial
    exact ((((((justified_nil.concat (decided _ _)).concat purchase).concat (opening _)).concat
      (decided _ _)).concat (sale _)).concat (sold (.performance firstSale) _ rfl rfl)).concat
        (sold (.completed firstSale rfl) _ rfl rfl)

/-- The position that is closed whole credits both tools. -/
theorem creditsOnce_wholeClose : CreditsOnce wholeClose (inPublishOrder wholeClose) :=
  creditsOnce_of_inTime causal_wholeClose (interleaves_inPublishOrder wholeClose) inTime_wholeClose

/-! ## Partial closes -/

def secondSale : PublishedFill := .ofUnit "order-3" "trace-3" "sell" (4 / 5) (some 3)

/-- A position of two units that is closed one by one. -/
def partialCloses : List Publication :=
  [.decision ⟨"trace-1", ["price_history"]⟩, .fill (bought 2),
    .decision ⟨"trace-2", ["news"]⟩, .fill firstSale,
    .decision ⟨"trace-3", ["news"]⟩, .fill secondSale]

theorem mem_fillsOf_partialCloses {fill : PublishedFill} (member : fill ∈ fillsOf partialCloses) :
    bought 2 = fill ∨ firstSale = fill ∨ secondSale = fill := by
  simpa [fillsOf, partialCloses, Publication.fill?] using member

theorem causal_partialCloses : Causal partialCloses where
  traces := by decide
  named := by decide
  symbols := by
    intro fill member
    obtain rfl | rfl | rfl := mem_fillsOf_partialCloses member
    all_goals exact of_decide_eq_true rfl
  decided := by
    have steps : Justified Decided partialCloses :=
      (((((justified_nil.concat trivial).concat ⟨_, .head _, rfl⟩).concat trivial).concat
        ⟨_, .tail _ (.head _), rfl⟩).concat trivial).concat ⟨_, .tail _ (.tail _ (.head _)), rfl⟩
    exact fun before fill after split => steps before _ after split
  longOnly := by
    intro fill member
    obtain rfl | rfl | rfl := mem_fillsOf_partialCloses member
    all_goals with_unfolding_all rfl
  opened := by
    intro close member closes
    obtain rfl | rfl | rfl := mem_fillsOf_partialCloses member
    · cases closes
    · exact ⟨bought 2, rfl, [bought 2], [secondSale], 2, rfl, by with_unfolding_all rfl⟩
    · exact ⟨bought 2, rfl, [bought 2, firstSale], [], 1, rfl, by with_unfolding_all rfl⟩
  fewDecisions := by decide
  fewSymbols := by decide

theorem not_creditsOnce_partialCloses : Causal partialCloses ∧
    Interleaves partialCloses (inPublishOrder partialCloses) ∧
      ¬CreditsOnce partialCloses (inPublishOrder partialCloses) := by
  refine ⟨causal_partialCloses, interleaves_inPublishOrder partialCloses, fun once => ?_⟩
  have isEntry : EntryOf (fillsOf partialCloses) secondSale (bought 2) :=
    ⟨rfl, [bought 2, firstSale], [], 1, rfl, by with_unfolding_all rfl⟩
  have tells : ∃ delivery, .event delivery ∈ inPublishOrder partialCloses ∧
      delivery.tells secondSale :=
    ⟨.performance secondSale, by simp [inPublishOrder, partialCloses, PublishedFill.deliveries],
      rfl, rfl⟩
  have credits := (once secondSale (bought 2) isEntry tells).length_eq
  have one :
      ((ToolReading.after (inPublishOrder partialCloses)).creditsOf secondSale).length = 1 := by
    decide +kernel
  have two : (toolsOf partialCloses secondSale.ctx.traceId ++
      toolsOf partialCloses (bought 2).ctx.traceId).dedup.length = 2 := by
    decide +kernel
  rw [one, List.length_map, two] at credits
  cases credits

end TradingControl.Learning
