import TradingControl.Learning.ToolHistories

/-!
# The caches behind the credits

While every position is bought and closed by one fill each and every message is read in time, the
caches hold the tools of the decisions and purchases that no close has taken yet.
-/

namespace TradingControl.Learning

open Effects Python

-- the lemmas about bounded dictionaries say all there is to know
attribute [local irreducible] Dict.remember

/-! ## What the caches hold -/

section Caches

variable {history : List Publication} {reads : List ToolRead} {agent : ToolAttribution}

theorem decisionRead_event {delivery : Delivery} {traceId : String} :
    DecisionRead (reads ++ [.event delivery]) traceId ↔ DecisionRead reads traceId := by
  simp [DecisionRead]

theorem execution_mem_trade {delivery : Delivery} (isTrade : delivery.isTrade = true)
    {entry : PublishedFill} : .event (.execution entry) ∈ reads ++ [ToolRead.event delivery] ↔
      .event (.execution entry) ∈ reads := by
  rw [List.mem_append]
  refine or_iff_left fun new => ?_
  obtain rfl := ToolRead.event.inj (List.mem_singleton.mp new)
  cases isTrade

theorem exists_event_concat {delivery : Delivery} {kind : Delivery → Prop} :
    (∃ other, .event other ∈ reads ++ [ToolRead.event delivery] ∧ kind other) ↔
      (∃ other, .event other ∈ reads ∧ kind other) ∨ kind delivery := by
  constructor
  · rintro ⟨other, member, isKind⟩
    rcases List.mem_append.mp member with old | new
    · exact .inl ⟨other, old, isKind⟩
    · obtain rfl := ToolRead.event.inj (List.mem_singleton.mp new)
      exact .inr isKind
  · rintro (⟨other, member, isKind⟩ | isKind)
    · exact ⟨other, List.mem_append_left _ member, isKind⟩
    · exact ⟨delivery, List.mem_append_right _ (List.mem_singleton_self _), isKind⟩

/-- No close of the position that the purchase opened has been seen. -/
def Unclosed (history : List Publication) (agent : ToolAttribution) (entry : PublishedFill) :
    Prop :=
  ∀ close, EntryOf (fillsOf history) close entry → close.ctx.traceId ∉ agent.closeDedup

/-- What the caches hold after messages were read in time. -/
structure Remembers (history : List Publication) (reads : List ToolRead)
    (agent : ToolAttribution) : Prop where
  seenDistinct : agent.closeDedup.Nodup
  seen : ∀ traceId, traceId ∈ agent.closeDedup ↔ ∃ delivery, .event delivery ∈ reads ∧
    delivery.isTrade = true ∧ delivery.fill.closes = true ∧ delivery.fill.ctx.traceId = traceId
  traceFits : Dict.Fits ((decisionsOf history).map ToolDecision.traceId) agent.traceTools
  entryFits : Dict.Fits ((fillsOf history).map fun fill => fill.ctx.symbol) agent.entryTools
  traceHeld : ∀ traceId, DecisionRead reads traceId → traceId ∉ agent.closeDedup →
    toolsOf history traceId ≠ [] → agent.traceTools.lookup traceId = some (toolsOf history traceId)
  traceOnly : ∀ traceId names, agent.traceTools.lookup traceId = some names →
    names = toolsOf history traceId
  entryHeld : ∀ entry, .event (.execution entry) ∈ reads → entry.buys = true →
    Unclosed history agent entry → toolsOf history entry.ctx.traceId ≠ [] →
      agent.entryTools.lookup entry.ctx.symbol = some (toolsOf history entry.ctx.traceId)
  entryOnly : ∀ symbol names, agent.entryTools.lookup symbol = some names →
    ∃ entry, .event (.execution entry) ∈ reads ∧ entry.buys = true ∧ entry.ctx.symbol = symbol ∧
      Unclosed history agent entry ∧ names = toolsOf history entry.ctx.traceId
  single : ∀ first second, .event (.execution first) ∈ reads →
    .event (.execution second) ∈ reads → first.buys = true → second.buys = true →
      Unclosed history agent first → Unclosed history agent second →
        first.ctx.symbol = second.ctx.symbol → first = second

theorem remembers_start (history : List Publication) : Remembers history [] {} where
  seenDistinct := List.nodup_nil
  seen := by simp
  traceFits := Dict.fits_nil
  entryFits := Dict.fits_nil
  traceHeld := by simp [DecisionRead]
  traceOnly := by simp
  entryHeld := by simp
  entryOnly := by simp
  single := by simp

/-- A message that the caches take nothing from, and that is no decision, purchase or close. -/
theorem Remembers.skip (remembers : Remembers history reads agent) {delivery : Delivery}
    (noClose : delivery.isTrade = true → delivery.fill.closes = false)
    (noPurchase : ∀ fill, delivery = .execution fill → fill.buys = false) :
    Remembers history (reads ++ [.event delivery]) agent where
  seenDistinct := remembers.seenDistinct
  seen traceId := by
    rw [remembers.seen, exists_event_concat]
    refine (or_iff_left ?_).symm
    rintro ⟨isTrade, closes, -⟩
    cases (noClose isTrade).symm.trans closes
  traceFits := remembers.traceFits
  entryFits := remembers.entryFits
  traceHeld traceId read := remembers.traceHeld traceId (decisionRead_event.mp read)
  traceOnly := remembers.traceOnly
  entryHeld entry member buys := by
    rcases List.mem_append.mp member with old | new
    · exact remembers.entryHeld entry old buys
    · cases (noPurchase entry (ToolRead.event.inj (List.mem_singleton.mp new)).symm).symm.trans buys
  entryOnly symbol names found := by
    obtain ⟨entry, member, facts⟩ := remembers.entryOnly symbol names found
    exact ⟨entry, List.mem_append_left _ member, facts⟩
  single first second firstMem secondMem firstBuys secondBuys := by
    have old : ∀ fill : PublishedFill, fill.buys = true →
        .event (.execution fill) ∈ reads ++ [ToolRead.event delivery] →
          .event (.execution fill) ∈ reads := by
      intro fill buys member
      rcases List.mem_append.mp member with old | new
      · exact old
      · cases (noPurchase fill (ToolRead.event.inj (List.mem_singleton.mp new)).symm).symm.trans
          buys
    exact remembers.single first second (old first firstBuys firstMem)
      (old second secondBuys secondMem) firstBuys secondBuys

/-- A decision is cached by its trace. -/
theorem Remembers.decision (remembers : Remembers history reads agent) (causal : Causal history)
    {decision : ToolDecision} (member : decision ∈ decisionsOf history) :
    Remembers history (reads ++ [.decision decision]) (agent.rememberDecisionTools decision) := by
  have isKnown : decision.traceId ∈ (decisionsOf history).map ToolDecision.traceId :=
    List.mem_map_of_mem member
  have few : ((decisionsOf history).map ToolDecision.traceId).dedup.length ≤ 500 := by
    rw [causal.traces.dedup, List.length_map]
    exact causal.fewDecisions
  have tools := causal.toolsOf_eq member
  obtain ⟨after, isAfter⟩ : ∃ after, after = agent.rememberDecisionTools decision := ⟨_, rfl⟩
  have unfolded : after = if decision.names = [] then agent else { agent with
      traceTools := Dict.remember 500 decision.traceId decision.names agent.traceTools } := by
    rw [isAfter, ToolAttribution.rememberDecisionTools, if_neg (causal.named decision member)]
  have sameSeen : after.closeDedup = agent.closeDedup := by
    rw [unfolded]
    split <;> rfl
  have sameEntries : after.entryTools = agent.entryTools := by
    rw [unfolded]
    split <;> rfl
  have lookups : ∀ traceId, after.traceTools.lookup traceId =
      if traceId = decision.traceId ∧ decision.names ≠ [] then some decision.names
      else agent.traceTools.lookup traceId := by
    intro traceId
    rw [unfolded]
    by_cases empty : decision.names = []
    · simp [empty]
    · rw [if_neg empty]
      dsimp only
      rw [remembers.traceFits.lookup_remember isKnown few]
      simp [empty]
  have unclosed : ∀ entry, Unclosed history after entry ↔ Unclosed history agent entry := by
    intro entry
    rw [Unclosed, Unclosed, sameSeen]
  have old : ∀ delivery, .event delivery ∈ reads ++ [ToolRead.decision decision] ↔
      .event delivery ∈ reads := by
    simp
  rw [← isAfter]
  refine ⟨sameSeen ▸ remembers.seenDistinct, fun traceId => ?_, ?_,
    sameEntries ▸ remembers.entryFits, fun traceId read fresh some => ?_,
    fun traceId names found => ?_, fun entry isRead buys isUnclosed some => ?_,
    fun symbol names found => ?_,
    fun first second firstMem secondMem firstBuys secondBuys firstUnclosed secondUnclosed => ?_⟩
  · rw [sameSeen, remembers.seen]
    simp only [old]
  · rw [unfolded]
    split
    · exact remembers.traceFits
    · exact remembers.traceFits.remember isKnown few decision.names
  · rw [lookups]
    split
    · next own => rw [own.1, tools]
    · next other =>
        refine remembers.traceHeld traceId ?_ (sameSeen ▸ fresh) some
        obtain ⟨held, isHeld, same⟩ := read
        rcases List.mem_append.mp isHeld with earlier | new
        · exact ⟨held, earlier, same⟩
        · obtain rfl := ToolRead.decision.inj (List.mem_singleton.mp new)
          refine absurd ⟨same.symm, fun empty => some ?_⟩ other
          rw [← same, tools, empty]
  · rw [lookups] at found
    split at found
    · next own => rw [own.1, tools, Option.some.inj found]
    · exact remembers.traceOnly traceId names found
  · rw [sameEntries]
    exact remembers.entryHeld entry ((old _).mp isRead) buys ((unclosed entry).mp isUnclosed) some
  · rw [sameEntries] at found
    obtain ⟨entry, isRead, buys, isSymbol, isUnclosed, isNames⟩ :=
      remembers.entryOnly symbol names found
    exact ⟨entry, (old _).mpr isRead, buys, isSymbol, (unclosed entry).mpr isUnclosed, isNames⟩
  · exact remembers.single first second ((old _).mp firstMem) ((old _).mp secondMem) firstBuys
      secondBuys ((unclosed first).mp firstUnclosed) ((unclosed second).mp secondUnclosed)

theorem Remembers.purchase_fresh (remembers : Remembers history reads agent)
    (causal : Causal history) {fill : PublishedFill}
    (interleaves : Interleaves history (reads ++ [.event (.execution fill)]))
    (inTime : InTime history (reads ++ [.event (.execution fill)])) (buys : fill.buys = true) :
    Unclosed history agent fill ∧ fill.ctx.traceId ∉ agent.closeDedup ∧
      ∀ other, .event (.execution other) ∈ reads → other.buys = true →
        Unclosed history agent other → other.ctx.symbol ≠ fill.ctx.symbol := by
  obtain ⟨later, split⟩ := interleaves.execution_split
  have isFill : fill ∈ fillsOf history := by
    rw [split]
    simp
  have readBefore : ∀ other, .event (.execution other) ∈ reads →
      other ∈ reads.filterMap ToolRead.execution? :=
    fun other member => List.mem_filterMap.mpr ⟨_, member, rfl⟩
  refine ⟨fun close isClose isSeen => ?_, fun isSeen => ?_,
    fun other member otherBuys unclosed same => ?_⟩
  · -- the close would have been read after the purchase
    obtain ⟨delivery, isRead, isTrade, closes, sameTrace⟩ := (remembers.seen _).mp isSeen
    have isSame : delivery.fill = close := eq_of_trace inTime.filledOnce
      (interleaves.of_append.fill_mem isRead) isClose.close_mem sameTrace
    obtain ⟨before, after, readSplit⟩ := List.append_of_mem isRead
    have now := inTime.of_append.reads before _ after readSplit
    have early : .event (.execution fill) ∈ before := by
      cases delivery with
      | execution fill => cases isTrade
      | performance other =>
          obtain rfl : other = close := isSame
          exact (now fill isClose).2
      | completed other _ =>
          obtain rfl : other = close := isSame
          exact (now fill isClose).2
    refine not_mem_of_split inTime.filledOnce split (readBefore fill ?_)
    rw [readSplit]
    exact List.mem_append_left _ early
  · obtain ⟨delivery, isRead, -, closes, sameTrace⟩ := (remembers.seen _).mp isSeen
    have isSame := eq_of_trace inTime.filledOnce (interleaves.of_append.fill_mem isRead) isFill
      sameTrace
    rw [isSame, causal.longOnly fill isFill, buys] at closes
    cases closes
  · obtain ⟨close, isEarlier, closes, isSymbol, isEntry⟩ := closed_between inTime.whole split
      (readBefore other member) otherBuys buys same
    have now := inTime.reads reads _ [] rfl
    obtain ⟨delivery, isRead, isTrade, rfl⟩ :=
      (now buys).2 _ later split close isEarlier isSymbol closes
    exact unclosed _ isEntry ((remembers.seen _).mpr ⟨delivery, isRead, isTrade, closes, rfl⟩)

/-- A purchase moves the tools of its decision to its symbol. -/
theorem Remembers.purchase (remembers : Remembers history reads agent) (causal : Causal history)
    {fill : PublishedFill}
    (interleaves : Interleaves history (reads ++ [.event (.execution fill)]))
    (inTime : InTime history (reads ++ [.event (.execution fill)])) (buys : fill.buys = true) :
    Remembers history (reads ++ [.event (.execution fill)]) (agent.rememberEntryTools fill) := by
  obtain ⟨unclosedFill, unseen, others⟩ :=
    remembers.purchase_fresh causal interleaves inTime buys
  have isFill : fill ∈ fillsOf history := interleaves.last_mem
  have isKnown : fill.ctx.symbol ∈ (fillsOf history).map fun fill => fill.ctx.symbol :=
    List.mem_map_of_mem isFill
  have read := (inTime.reads reads _ [] rfl buys).1
  obtain ⟨tools, isTools⟩ : ∃ tools, tools = toolsOf history fill.ctx.traceId := ⟨_, rfl⟩
  obtain ⟨after, isAfter⟩ : ∃ after, after = agent.rememberEntryTools fill := ⟨_, rfl⟩
  have unfolded : after = if tools = [] then agent else
      { agent with entryTools := Dict.remember 100 fill.ctx.symbol tools agent.entryTools } := by
    rw [isAfter, ToolAttribution.rememberEntryTools, if_neg (by simp [buys]),
      if_neg (by simp [causal.symbols fill isFill, causal.named_fill isFill])]
    by_cases empty : tools = []
    · rw [if_pos empty]
      cases found : agent.traceTools.lookup fill.ctx.traceId with
      | none => rfl
      | some names =>
          have isEmpty := remembers.traceOnly _ names found
          rw [← isTools, empty] at isEmpty
          exact if_pos isEmpty
    · rw [if_neg empty]
      rw [remembers.traceHeld _ read unseen (isTools ▸ empty), ← isTools]
      exact if_neg empty
  have sameSeen : after.closeDedup = agent.closeDedup := by
    rw [unfolded]
    split <;> rfl
  have sameTraces : after.traceTools = agent.traceTools := by
    rw [unfolded]
    split <;> rfl
  have lookups : ∀ symbol, after.entryTools.lookup symbol =
      if symbol = fill.ctx.symbol ∧ tools ≠ [] then some tools
      else agent.entryTools.lookup symbol := by
    intro symbol
    rw [unfolded]
    by_cases empty : tools = []
    · simp [empty]
    · rw [if_neg empty]
      dsimp only
      rw [remembers.entryFits.lookup_remember isKnown causal.fewSymbols]
      simp [empty]
  have unclosed : ∀ entry, Unclosed history after entry ↔ Unclosed history agent entry := by
    intro entry
    rw [Unclosed, Unclosed, sameSeen]
  have cases_read : ∀ {entry}, .event (.execution entry) ∈ reads ++
      [ToolRead.event (.execution fill)] → .event (.execution entry) ∈ reads ∨ entry = fill := by
    intro entry member
    rcases List.mem_append.mp member with old | new
    · exact .inl old
    · exact .inr (Delivery.execution.inj (ToolRead.event.inj (List.mem_singleton.mp new)))
  rw [← isAfter]
  refine ⟨sameSeen ▸ remembers.seenDistinct, fun traceId => ?_, sameTraces ▸ remembers.traceFits,
    ?_, fun traceId isRead fresh some => ?_, sameTraces ▸ remembers.traceOnly,
    fun entry isRead entryBuys isUnclosed some => ?_, fun symbol names found => ?_,
    fun first second firstMem secondMem firstBuys secondBuys firstOpen secondOpen same => ?_⟩
  · rw [sameSeen, remembers.seen, exists_event_concat]
    refine (or_iff_left ?_).symm
    rintro ⟨isTrade, -⟩
    cases isTrade
  · rw [unfolded]
    split
    · exact remembers.entryFits
    · exact remembers.entryFits.remember isKnown causal.fewSymbols tools
  · rw [sameTraces]
    exact remembers.traceHeld traceId (decisionRead_event.mp isRead) (sameSeen ▸ fresh) some
  · rw [lookups]
    rcases cases_read isRead with old | rfl
    · have before := (unclosed entry).mp isUnclosed
      rw [if_neg fun both => others entry old entryBuys before both.1]
      exact remembers.entryHeld entry old entryBuys before some
    · rw [if_pos ⟨rfl, isTools ▸ some⟩, isTools]
  · rw [lookups] at found
    split at found
    · next own =>
        exact ⟨fill, List.mem_append_right _ (List.mem_singleton_self _), buys, own.1.symm,
          (unclosed fill).mpr unclosedFill, by rw [← isTools, Option.some.inj found]⟩
    · obtain ⟨entry, isRead, entryBuys, isSymbol, isUnclosed, isNames⟩ :=
        remembers.entryOnly symbol names found
      exact ⟨entry, List.mem_append_left _ isRead, entryBuys, isSymbol,
        (unclosed entry).mpr isUnclosed, isNames⟩
  · have firstBefore := (unclosed first).mp firstOpen
    have secondBefore := (unclosed second).mp secondOpen
    rcases cases_read firstMem with firstOld | rfl
    · rcases cases_read secondMem with secondOld | rfl
      · exact remembers.single first second firstOld secondOld firstBuys secondBuys firstBefore
          secondBefore same
      · exact absurd same (others first firstOld firstBuys firstBefore)
    · rcases cases_read secondMem with secondOld | rfl
      · exact absurd same.symm (others second secondOld secondBuys secondBefore)
      · rfl

theorem Remembers.seen_subset (remembers : Remembers history reads agent)
    (causal : Causal history) (interleaves : Interleaves history reads) :
    agent.closeDedup ⊆ (decisionsOf history).map ToolDecision.traceId := by
  intro traceId isSeen
  obtain ⟨delivery, isRead, -, -, rfl⟩ := (remembers.seen traceId).mp isSeen
  exact causal.decided_mem (interleaves.fill_mem isRead)

/-- The second event of a close changes nothing that matters. -/
theorem Remembers.again (remembers : Remembers history reads agent) {delivery : Delivery}
    {closeDedup : List String} (distinct : closeDedup.Nodup)
    (isSeen : delivery.fill.ctx.traceId ∈ agent.closeDedup)
    (same : ∀ traceId, traceId ∈ closeDedup ↔ traceId ∈ agent.closeDedup)
    (isTrade : delivery.isTrade = true) :
    Remembers history (reads ++ [.event delivery]) { agent with closeDedup := closeDedup } := by
  have unclosed : ∀ entry, Unclosed history { agent with closeDedup := closeDedup } entry ↔
      Unclosed history agent entry := by
    intro entry
    simp only [Unclosed, same]
  have execution : ∀ {entry}, .event (.execution entry) ∈ reads ++ [ToolRead.event delivery] ↔
      .event (.execution entry) ∈ reads := execution_mem_trade isTrade
  refine ⟨distinct, fun traceId => ?_, remembers.traceFits, remembers.entryFits,
    fun traceId isRead fresh => ?_, remembers.traceOnly, fun entry isRead buys isOpen => ?_,
    fun symbol names found => ?_, fun first second firstMem secondMem firstBuys secondBuys
      firstOpen secondOpen => ?_⟩
  · rw [same, remembers.seen, exists_event_concat]
    refine (or_iff_left_of_imp ?_).symm
    rintro ⟨-, -, rfl⟩
    exact (remembers.seen _).mp isSeen
  · exact remembers.traceHeld traceId (decisionRead_event.mp isRead) (mt (same traceId).mpr fresh)
  · exact remembers.entryHeld entry (execution.mp isRead) buys ((unclosed entry).mp isOpen)
  · obtain ⟨entry, isRead, buys, isSymbol, isOpen, isNames⟩ :=
      remembers.entryOnly symbol names found
    exact ⟨entry, execution.mpr isRead, buys, isSymbol, (unclosed entry).mpr isOpen, isNames⟩
  · exact remembers.single first second (execution.mp firstMem) (execution.mp secondMem) firstBuys
      secondBuys ((unclosed first).mp firstOpen) ((unclosed second).mp secondOpen)

/-- The position of a close that is read in time is open, and the tools of its entry are cached. -/
theorem Remembers.entry_tools (remembers : Remembers history reads agent)
    (once : ((fillsOf history).map fun fill => fill.ctx.traceId).Nodup)
    (whole : Justified WholeNow (fillsOf history)) {close entry : PublishedFill}
    (isEntry : EntryOf (fillsOf history) close entry)
    (isRead : .event (.execution entry) ∈ reads) (fresh : close.ctx.traceId ∉ agent.closeDedup) :
    Unclosed history agent entry ∧
      (agent.entryTools.lookup close.ctx.symbol).getD [] =
        toolsOf history entry.ctx.traceId := by
  obtain ⟨-, buys, sameSymbol⟩ := isEntry.entry_spec
  have isOpen : Unclosed history agent entry := by
    intro other isOther
    rw [EntryOf.unique once whole isOther isEntry]
    exact fresh
  refine ⟨isOpen, ?_⟩
  by_cases empty : toolsOf history entry.ctx.traceId = []
  · cases found : agent.entryTools.lookup close.ctx.symbol with
    | none => exact empty.symm
    | some names =>
        obtain ⟨other, otherRead, otherBuys, otherSymbol, otherOpen, rfl⟩ :=
          remembers.entryOnly _ names found
        have sameEntry := remembers.single other entry otherRead isRead otherBuys buys otherOpen
          isOpen (otherSymbol.trans sameSymbol.symm)
        rw [sameEntry]
        rfl
  · rw [← sameSymbol, remembers.entryHeld entry isRead buys isOpen empty]
    rfl

theorem Remembers.closing_tools (remembers : Remembers history reads agent) {traceId : String}
    (isRead : DecisionRead reads traceId) (fresh : traceId ∉ agent.closeDedup) :
    (agent.traceTools.lookup traceId).getD [] = toolsOf history traceId := by
  by_cases empty : toolsOf history traceId = []
  · cases found : agent.traceTools.lookup traceId with
    | none => exact empty.symm
    | some names => exact remembers.traceOnly traceId names found
  · rw [remembers.traceHeld traceId isRead fresh empty]
    rfl

/-- The first event of a close takes the tools of both decisions out of the caches. -/
theorem Remembers.close (remembers : Remembers history reads agent) {delivery : Delivery}
    (interleaves : Interleaves history (reads ++ [.event delivery]))
    (once : ((fillsOf history).map fun fill => fill.ctx.traceId).Nodup)
    (whole : Justified WholeNow (fillsOf history)) (isTrade : delivery.isTrade = true)
    (closes : delivery.fill.closes = true) {entry : PublishedFill}
    (isEntry : EntryOf (fillsOf history) delivery.fill entry)
    (isRead : .event (.execution entry) ∈ reads)
    (fresh : delivery.fill.ctx.traceId ∉ agent.closeDedup) {closeDedup : List String}
    (distinct : closeDedup.Nodup)
    (added : ∀ traceId, traceId ∈ closeDedup ↔
      traceId = delivery.fill.ctx.traceId ∨ traceId ∈ agent.closeDedup) :
    Remembers history (reads ++ [.event delivery])
      { traceTools := Dict.discard delivery.fill.ctx.traceId agent.traceTools
        entryTools := Dict.discard delivery.fill.ctx.symbol agent.entryTools
        closeDedup := closeDedup } := by
  obtain ⟨after, isAfter⟩ : ∃ after : ToolAttribution, after =
    { traceTools := Dict.discard delivery.fill.ctx.traceId agent.traceTools
      entryTools := Dict.discard delivery.fill.ctx.symbol agent.entryTools
      closeDedup := closeDedup } := ⟨_, rfl⟩
  have isSeen : ∀ traceId, traceId ∈ after.closeDedup ↔
      traceId = delivery.fill.ctx.traceId ∨ traceId ∈ agent.closeDedup := by
    rw [isAfter]
    exact added
  have isOpen := (remembers.entry_tools once whole isEntry isRead fresh).1
  obtain ⟨-, entryBuys, entrySymbol⟩ := isEntry.entry_spec
  have earlier : ∀ fill, Unclosed history after fill → Unclosed history agent fill := by
    intro fill unclosed close isClose seen
    exact unclosed close isClose ((isSeen _).mpr (.inr seen))
  have execution : ∀ {fill}, .event (.execution fill) ∈ reads ++ [ToolRead.event delivery] ↔
      .event (.execution fill) ∈ reads := execution_mem_trade isTrade
  have traceLookups : ∀ traceId, after.traceTools.lookup traceId =
      if traceId = delivery.fill.ctx.traceId then none else agent.traceTools.lookup traceId := by
    intro traceId
    rw [isAfter]
    exact Dict.lookup_discard _ _ _
  have entryLookups : ∀ symbol, after.entryTools.lookup symbol =
      if symbol = delivery.fill.ctx.symbol then none else agent.entryTools.lookup symbol := by
    intro symbol
    rw [isAfter]
    exact Dict.lookup_discard _ _ _
  rw [← isAfter]
  refine ⟨isAfter ▸ distinct, fun traceId => ?_, isAfter ▸ remembers.traceFits.discard _,
    isAfter ▸ remembers.entryFits.discard _, fun traceId isRead unseen some => ?_,
    fun traceId names found => ?_, fun fill fillRead buys unclosed some => ?_,
    fun symbol names found => ?_, fun first second firstMem secondMem firstBuys secondBuys
      firstOpen secondOpen => ?_⟩
  · rw [isSeen, remembers.seen, exists_event_concat, or_comm]
    refine or_congr_right ?_
    exact ⟨fun same => ⟨isTrade, closes, same.symm⟩, fun facts => facts.2.2.symm⟩
  · obtain ⟨own, before⟩ := not_or.mp (mt (isSeen traceId).mpr unseen)
    rw [traceLookups, if_neg own]
    exact remembers.traceHeld traceId (decisionRead_event.mp isRead) before some
  · rw [traceLookups] at found
    split at found
    · cases found
    · exact remembers.traceOnly traceId names found
  · have fillOpen := earlier fill unclosed
    have fillRead := execution.mp fillRead
    have elsewhere : fill.ctx.symbol ≠ delivery.fill.ctx.symbol := by
      intro same
      have isSame := remembers.single fill entry fillRead isRead buys entryBuys fillOpen isOpen
        (same.trans entrySymbol.symm)
      rw [isSame] at unclosed
      exact unclosed _ isEntry ((isSeen _).mpr (.inl rfl))
    rw [entryLookups, if_neg elsewhere]
    exact remembers.entryHeld fill fillRead buys fillOpen some
  · rw [entryLookups] at found
    split at found
    · cases found
    · next elsewhere =>
        obtain ⟨fill, fillRead, buys, isSymbol, fillOpen, isNames⟩ :=
          remembers.entryOnly symbol names found
        refine ⟨fill, execution.mpr fillRead, buys, isSymbol, fun close isClose seen => ?_, isNames⟩
        rcases (isSeen _).mp seen with same | before
        · have isFill := interleaves.fill_mem
            (List.mem_append_right reads (List.mem_singleton_self (ToolRead.event delivery)))
          have sameClose := eq_of_trace once isClose.close_mem isFill same
          rw [sameClose] at isClose
          exact elsewhere (isSymbol.symm.trans isClose.entry_spec.2.2)
        · exact fillOpen close isClose before
  · exact remembers.single first second (execution.mp firstMem) (execution.mp secondMem) firstBuys
      secondBuys (earlier first firstOpen) (earlier second secondOpen)

end Caches

end TradingControl.Learning
