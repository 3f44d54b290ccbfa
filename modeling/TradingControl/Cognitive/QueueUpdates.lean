import TradingControl.Cognitive.Loop

/-!
# Evolution cycles

What one cycle can do, said once: its result, the queue it leaves, and the configuration that an
approved proposal is a candidate for.
-/

namespace TradingControl.Cognitive

open Python

namespace EvolveResult

def proposal : EvolveResult → Proposal
  | .blocked proposal _ => proposal
  | .rejected proposal _ => proposal
  | .judged proposal _ => proposal

/-- Status with which the cycle queues its proposal. -/
def opening : EvolveResult → ProposalStatus
  | .blocked _ _ => .blocked
  | .rejected _ _ => .backtesting
  | .judged _ _ => .backtesting

/-- What the cycle records in an entry at its end. -/
def settle : EvolveResult → QueueEntry → QueueEntry
  | .blocked _ reason, entry => { entry with verdict := some [("blocked", .str reason)] }
  | .rejected _ _, entry => { entry with status := .rejected }
  | .judged _ judgement, entry =>
      if judgement.verdict.approved then
        { entry with
          status := .approved
          verdict := some judgement.verdict.asDict
          delta := some judgement.backtests.outSample.asDict
          pullRequest := judgement.pullRequest.map (·.asDict)
          proposalGrade := some judgement.proposalGrade.asDict }
      else
        { entry with
          status := .rejected
          verdict := some judgement.verdict.asDict
          delta := some judgement.backtests.outSample.asDict
          proposalGrade := some judgement.proposalGrade.asDict }

end EvolveResult

namespace Loop

variable (runtime : Runtime)

/-- The proposal that a cycle puts forward. -/
def proposalOf (loop : Loop) (call : EvolveCall) : Option Proposal :=
  match call.propose (loop.learn runtime).1 loop.config loop.scorecard with
  | .ok proposal => proposal
  | .error _ => none

/-- Results of a cycle, with the queue each one leaves. -/
inductive CycleOutcome (loop : Loop) (call : EvolveCall) :
    Except Raised (Option EvolveResult) → ProposalQueue → Prop
  /-- No proposal, or an exception before one is queued. -/
  | idle (result : Except Raised (Option EvolveResult))
      (none : ∀ settled, result ≠ .ok (some settled)) :
      CycleOutcome loop call result loop.queue
  /-- An exception once the proposal is queued. -/
  | raised (proposal : Proposal) (proposed : loop.proposalOf runtime call = some proposal)
      (error : Raised) :
      CycleOutcome loop call (.error error) (ProposalQueue.add loop.queue proposal .backtesting)
  | settled (result : EvolveResult) (proposed : loop.proposalOf runtime call = some result.proposal)
      (candidate : ∀ judgement, result = .judged result.proposal judgement →
        applyProposalToConfig runtime loop.config result.proposal =
          .ok (some judgement.candidateConfig)) :
      CycleOutcome loop call (.ok (some result))
        (ProposalQueue.update result.proposal.proposalId result.settle
          (ProposalQueue.add loop.queue result.proposal result.opening))

theorem settle_eq (call : EvolveCall) (proposal : Proposal) (candidate : CognitiveConfig)
    (backtests : Backtests) (verdict : ChallengerVerdict) (loop : Loop) :
    ∃ judgement, (settle runtime call proposal candidate backtests verdict loop).1 =
        .judged proposal judgement ∧ judgement.candidateConfig = candidate ∧
      (settle runtime call proposal candidate backtests verdict loop).2.queue =
        ProposalQueue.update proposal.proposalId (EvolveResult.judged proposal judgement).settle
          loop.queue := by
  rw [settle]
  dsimp only
  split_ifs with approved
  · refine ⟨_, rfl, rfl, ?_⟩
    refine congrArg (ProposalQueue.update _ · loop.queue) (funext fun entry => ?_)
    simp [EvolveResult.settle, approved]
  · refine ⟨_, rfl, rfl, ?_⟩
    refine congrArg (ProposalQueue.update _ · loop.queue) (funext fun entry => ?_)
    simp [EvolveResult.settle, approved]

/-- A backtested proposal: an exception, or a recorded verdict. -/
theorem judge_cases (call : EvolveCall) (proposal : Proposal) (candidate : CognitiveConfig)
    (loop : Loop) :
    (∃ error, (judge runtime call proposal candidate loop).1 = .error error ∧
      (judge runtime call proposal candidate loop).2.queue = loop.queue) ∨
    ∃ judgement, (judge runtime call proposal candidate loop).1 = .ok (.judged proposal judgement) ∧
      judgement.candidateConfig = candidate ∧
      (judge runtime call proposal candidate loop).2.queue =
        ProposalQueue.update proposal.proposalId (EvolveResult.judged proposal judgement).settle
          loop.queue := by
  rw [judge]
  cases runBacktests runtime call loop.config candidate with
  | error error => exact Or.inl ⟨error, rfl, rfl⟩
  | ok backtests =>
      dsimp only
      cases challenged : (loop.emit (backtestMessage proposal backtests)).challenge runtime proposal
          backtests with
      | error error => exact Or.inl ⟨error, rfl, rfl⟩
      | ok verdict =>
          obtain ⟨judgement, result, same, queue⟩ := settle_eq runtime call proposal candidate
            backtests verdict (loop.emit (backtestMessage proposal backtests))
          exact Or.inr ⟨judgement, congrArg Except.ok result, same, queue⟩

/-- An admitted proposal: an exception, or a result that is recorded. -/
theorem pursue_cases (call : EvolveCall) (proposal : Proposal) (loop : Loop) :
    (∃ error, (pursue runtime call proposal loop).1 = .error error ∧
      (pursue runtime call proposal loop).2.queue =
        ProposalQueue.add loop.queue proposal .backtesting) ∨
    ∃ result, (pursue runtime call proposal loop).1 = .ok result ∧ result.proposal = proposal ∧
      result.opening = .backtesting ∧
      (∀ judgement, result = .judged proposal judgement →
        applyProposalToConfig runtime loop.config proposal = .ok (some judgement.candidateConfig)) ∧
      (pursue runtime call proposal loop).2.queue =
        ProposalQueue.update proposal.proposalId result.settle
          (ProposalQueue.add loop.queue proposal .backtesting) := by
  rw [pursue]
  dsimp only
  rcases applyProposalToConfig runtime loop.config proposal with error | ⟨_ | candidate⟩
  · exact Or.inl ⟨error, rfl, rfl⟩
  · refine Or.inr ⟨_, rfl, rfl, rfl, ?_, rfl⟩
    rintro judgement ⟨⟩
  · rcases judge_cases runtime call proposal candidate
      { loop with queue := ProposalQueue.add loop.queue proposal .backtesting } with
      ⟨error, failed, queue⟩ | ⟨judgement, result, same, queue⟩
    · exact Or.inl ⟨error, failed, queue⟩
    · refine Or.inr ⟨_, result, rfl, rfl, ?_, queue⟩
      rintro other ⟨⟩
      rw [same]

/-- A proposal: an exception before it is queued, or one of the ends of a cycle. -/
theorem consider_cases (call : EvolveCall) (proposal : Proposal) (loop : Loop) :
    (∃ error, (consider runtime call proposal loop).1 = .error error ∧
      ((consider runtime call proposal loop).2.queue = loop.queue ∨
        (consider runtime call proposal loop).2.queue =
          ProposalQueue.add loop.queue proposal .backtesting)) ∨
    ∃ result, (consider runtime call proposal loop).1 = .ok result ∧ result.proposal = proposal ∧
      (∀ judgement, result = .judged proposal judgement →
        applyProposalToConfig runtime loop.config proposal = .ok (some judgement.candidateConfig)) ∧
      (consider runtime call proposal loop).2.queue =
        ProposalQueue.update proposal.proposalId result.settle
          (ProposalQueue.add loop.queue proposal result.opening) := by
  rw [consider]
  dsimp only
  generalize announcement : loop.emit _ = announced
  have config : announced.config = loop.config := by rw [← announcement]; rfl
  have queue : announced.queue = loop.queue := by rw [← announcement]; rfl
  rcases announced.governor.admitProposal runtime proposal with
    ⟨error | ⟨admitted, reason⟩, governor⟩
  · exact Or.inl ⟨error, rfl, Or.inl queue⟩
  · dsimp only
    split_ifs with opened
    · rcases pursue_cases runtime call proposal { announced with governor } with
        ⟨error, failed, left⟩ | ⟨result, found, same, opening, candidate, left⟩
      · refine Or.inl ⟨error, failed, Or.inr (left.trans ?_)⟩
        rw [← queue]
      · rw [config] at candidate
        refine Or.inr ⟨result, found, same, candidate, left.trans ?_⟩
        rw [← queue, opening]
    · refine Or.inr ⟨_, rfl, rfl, ?_, ?_⟩
      · rintro judgement ⟨⟩
      · rw [refuse, queue]
        rfl

theorem evolve_outcome (loop : Loop) (call : EvolveCall) :
    CycleOutcome runtime loop call (loop.evolve runtime call).1
      (loop.evolve runtime call).2.queue := by
  have queue : (loop.learn runtime).2.queue = loop.queue := rfl
  have config : (loop.learn runtime).2.config = loop.config := rfl
  have proposed : loop.proposalOf runtime call = match call.propose (loop.learn runtime).1
      (loop.learn runtime).2.config (loop.learn runtime).2.scorecard with
    | .ok proposal => proposal
    | .error _ => none := rfl
  rw [evolve]
  dsimp only
  rcases put : call.propose (loop.learn runtime).1 (loop.learn runtime).2.config
    (loop.learn runtime).2.scorecard with error | ⟨_ | proposal⟩
  · exact .idle (.error error) (by simp)
  · exact .idle (.ok none) (by simp)
  · rw [put] at proposed
    dsimp only
    rcases consider_cases runtime call proposal (loop.learn runtime).2 with
      ⟨error, failed, same | left⟩ | ⟨result, found, rfl, candidate, left⟩
    · rw [failed, same, queue]
      exact .idle _ (by simp [Except.map])
    · rw [failed, left, queue]
      exact .raised proposal proposed error
    · rw [found, left, queue]
      exact .settled result proposed candidate

end Loop

end TradingControl.Cognitive

/-!
# Updates of the proposal queue

An update finds its entry by the id of the proposal, and the id is made of target and value.  As
long as no cycle puts an id forward that the queue already has, every update hits the entry of its own
proposal; the update of a repeated id hits the entry of the earlier cycle.
-/

namespace TradingControl.Cognitive

open Python

namespace ProposalQueue

/-- Ids of the entries. -/
def ids (queue : ProposalQueue) : List String := queue.map (·.proposal.proposalId)

theorem update_add {queue : ProposalQueue} (entry : QueueEntry) (change : QueueEntry → QueueEntry)
    (fresh : entry.proposal.proposalId ∉ ids queue) :
    update entry.proposal.proposalId change (queue ++ [entry]) = queue ++ [change entry] := by
  induction queue with
  | nil => simp [update]
  | cons held rest induction =>
      simp only [ids, List.map_cons, List.mem_cons, not_or] at fresh
      rw [List.cons_append, update, if_neg (Ne.symm fresh.1), induction fresh.2]
      rfl

theorem update_eq_map {queue : ProposalQueue} (distinct : (ids queue).Nodup) (proposalId : String)
    (change : QueueEntry → QueueEntry) :
    update proposalId change queue = queue.map fun entry =>
      if entry.proposal.proposalId = proposalId then change entry else entry := by
  induction queue with
  | nil => rfl
  | cons held rest induction =>
      simp only [ids, List.map_cons, List.nodup_cons] at distinct
      rw [update, List.map_cons]
      split_ifs with same
      · have others : ∀ entry ∈ rest,
            (if entry.proposal.proposalId = proposalId then change entry else entry) = entry := by
          intro entry member
          refine if_neg fun again => distinct.1 ?_
          rw [same, ← again]
          exact List.mem_map_of_mem member
        rw [List.map_congr_left others, List.map_id']
      · rw [induction distinct.2]

end ProposalQueue

/-- The entry that a finished cycle leaves. -/
def EvolveResult.entry (result : EvolveResult) : QueueEntry :=
  result.settle { proposal := result.proposal, status := result.opening }

theorem EvolveResult.entry_proposal (result : EvolveResult) :
    result.entry.proposal = result.proposal := by
  cases result with
  | blocked proposal reason => rfl
  | rejected proposal reason => rfl
  | judged proposal judgement =>
      rw [EvolveResult.entry, EvolveResult.settle]
      dsimp only
      split_ifs <;> rfl

def QueueEntry.markMerged (proposalId : Option String) (entry : QueueEntry) : QueueEntry :=
  if proposalId = some entry.proposal.proposalId then { entry with status := .merged } else entry

/-- The cycle of the entry is over. -/
def QueueEntry.Final (entry : QueueEntry) : Prop :=
  entry.status = .blocked ∨ entry.status = .rejected ∨ entry.status = .merged

namespace Loop

variable (runtime : Runtime)

/-- The operation updates the entry that was added for its proposal, and no other. -/
def UpdatesOwn (loop : Loop) : LoopOp → Prop
  | .evolve call =>
      match (loop.evolve runtime call).1 with
      | .ok none => (loop.evolve runtime call).2.queue = loop.queue
      | .ok (some result) => (loop.evolve runtime call).2.queue = loop.queue ++ [result.entry]
      | .error _ => (loop.evolve runtime call).2.queue = loop.queue ∨
          ∃ proposal, loop.proposalOf runtime call = some proposal ∧
            (loop.evolve runtime call).2.queue =
              loop.queue ++ [{ proposal := proposal, status := .backtesting }]
  | .merge call =>
      (loop.merge runtime call).2.queue = loop.queue.map (·.markMerged call.proposalId) ∧
        (ProposalQueue.ids loop.queue).Nodup
  | operation => (loop.perform runtime operation).queue = loop.queue

/-- The operation leaves the entries of finished cycles as they are. -/
def KeepsFinal (loop : Loop) (operation : LoopOp) : Prop :=
  ∀ (index : ℕ) (entry : QueueEntry), loop.queue[index]? = some entry → entry.Final →
    (loop.perform runtime operation).queue[index]? = some entry

/-- Every operation of the run updates its own entry and keeps the finished ones. -/
def UpdatesProper (loop : Loop) : List LoopOp → Prop
  | [] => True
  | operation :: rest =>
      loop.UpdatesOwn runtime operation ∧ loop.KeepsFinal runtime operation ∧
        UpdatesProper (loop.perform runtime operation) rest

/-- A cycle puts forward an id that the queue does not have, and a merge names no entry that was
rejected or blocked. -/
def Unambiguous (loop : Loop) : LoopOp → Prop
  | .evolve call => ∀ proposal, loop.proposalOf runtime call = some proposal →
      proposal.proposalId ∉ ProposalQueue.ids loop.queue
  | .merge call => ∀ entry ∈ loop.queue, call.proposalId = some entry.proposal.proposalId →
      entry.status ≠ .rejected ∧ entry.status ≠ .blocked
  | _ => True

/-- Every operation of the run is unambiguous where it takes place. -/
def UnambiguousRun (loop : Loop) : List LoopOp → Prop
  | [] => True
  | operation :: rest =>
      loop.Unambiguous runtime operation ∧ UnambiguousRun (loop.perform runtime operation) rest

/-- An operation that is neither a cycle nor a merge leaves the queue as it is. -/
theorem closeTrade_queue (traceId : String) (outcome : TradeOutcome) (loop : Loop) :
    (loop.closeTrade runtime traceId outcome).2.queue = loop.queue := by
  rw [closeTrade, closeWith]
  split
  · rfl
  · rw [gradeClosed]
    split
    · rfl
    · dsimp only
      split <;> rfl

theorem queue_settled {queue : ProposalQueue} {result : EvolveResult}
    (fresh : result.proposal.proposalId ∉ ProposalQueue.ids queue) :
    ProposalQueue.update result.proposal.proposalId result.settle
        (ProposalQueue.add queue result.proposal result.opening) = queue ++ [result.entry] :=
  ProposalQueue.update_add ⟨result.proposal, result.opening, none, none, none, none⟩
    result.settle fresh

/-- What an operation leaves alone: the entries with a final status, and distinct ids. -/
theorem keeps_of_same {loop : Loop} (operation : LoopOp)
    (distinct : (ProposalQueue.ids loop.queue).Nodup)
    (same : (loop.perform runtime operation).queue = loop.queue) :
    loop.KeepsFinal runtime operation ∧
      (ProposalQueue.ids (loop.perform runtime operation).queue).Nodup := by
  simp only [KeepsFinal]
  rw [same]
  exact ⟨fun _ _ held _ => held, distinct⟩

theorem keeps_of_appended {loop : Loop} (operation : LoopOp) (entry : QueueEntry)
    (distinct : (ProposalQueue.ids loop.queue).Nodup)
    (appended : (loop.perform runtime operation).queue = loop.queue ++ [entry])
    (fresh : entry.proposal.proposalId ∉ ProposalQueue.ids loop.queue) :
    loop.KeepsFinal runtime operation ∧
      (ProposalQueue.ids (loop.perform runtime operation).queue).Nodup := by
  simp only [KeepsFinal]
  rw [appended]
  refine ⟨fun index held found _ => ?_, ?_⟩
  · rw [List.getElem?_append_left (List.getElem?_eq_some_iff.mp found).1, found]
  · rw [ProposalQueue.ids, List.map_append, List.nodup_append]
    refine ⟨distinct, by simp, ?_⟩
    rintro first member second only rfl
    rw [List.map_singleton, List.mem_singleton] at only
    exact fresh (only ▸ member)

theorem queue_merge {loop : Loop} (distinct : (ProposalQueue.ids loop.queue).Nodup)
    (call : MergeCall) :
    (loop.merge runtime call).2.queue = loop.queue.map (·.markMerged call.proposalId) := by
  obtain ⟨candidate, sharpe, maxDrawdownPct, proposalId⟩ := call
  simp only [QueueEntry.markMerged]
  cases proposalId with
  | none =>
      change loop.queue = _
      simp
  | some proposalId =>
      change ProposalQueue.update proposalId (fun entry => { entry with status := .merged })
        loop.queue = _
      rw [ProposalQueue.update_eq_map distinct]
      simp only [Option.some.injEq, eq_comm]

theorem ids_map_markMerged (queue : ProposalQueue) (proposalId : Option String) :
    ProposalQueue.ids (queue.map (·.markMerged proposalId)) = ProposalQueue.ids queue := by
  rw [ProposalQueue.ids, List.map_map]
  refine List.map_congr_left fun entry _ => ?_
  simp only [Function.comp, QueueEntry.markMerged]
  split_ifs <;> rfl

/-- An entry with a final status that is named by a merge has been merged before. -/
theorem keepsFinal_merge {loop : Loop} {call : MergeCall}
    (distinct : (ProposalQueue.ids loop.queue).Nodup)
    (unambiguous : loop.Unambiguous runtime (.merge call)) :
    loop.KeepsFinal runtime (.merge call) := by
  intro index entry held final
  change (loop.merge runtime call).2.queue[index]? = some entry
  rw [queue_merge runtime distinct, List.getElem?_map, held, Option.map_some,
    QueueEntry.markMerged]
  split_ifs with named
  · obtain ⟨rejected, blocked⟩ := unambiguous entry (List.mem_of_getElem? held) named
    have merged : entry.status = .merged := by
      rcases final with status | status | status
      · exact absurd status blocked
      · exact absurd status rejected
      · exact status
    rw [← merged]
  · rfl

theorem updatesOwn_of_unambiguous {loop : Loop} {operation : LoopOp}
    (distinct : (ProposalQueue.ids loop.queue).Nodup)
    (unambiguous : loop.Unambiguous runtime operation) :
    loop.UpdatesOwn runtime operation ∧ loop.KeepsFinal runtime operation ∧
      (ProposalQueue.ids (loop.perform runtime operation).queue).Nodup := by
  cases operation with
  | step call => exact ⟨rfl, keeps_of_same runtime (.step call) distinct rfl⟩
  | closeTrade traceId outcome =>
      have same := closeTrade_queue runtime traceId outcome loop
      exact ⟨same, keeps_of_same runtime (.closeTrade traceId outcome) distinct same⟩
  | learn => exact ⟨rfl, keeps_of_same runtime .learn distinct rfl⟩
  | detectDrift => exact ⟨rfl, keeps_of_same runtime .detectDrift distinct rfl⟩
  | evolve call =>
      have outcome := evolve_outcome runtime loop call
      have unchanged := keeps_of_same runtime (.evolve call) distinct
      have added := fun entry => keeps_of_appended runtime (.evolve call) entry distinct
      change UpdatesOwn runtime loop (.evolve call) ∧ _
      simp only [UpdatesOwn]
      dsimp only [perform] at unchanged added ⊢
      generalize (loop.evolve runtime call).1 = result at outcome ⊢
      generalize (loop.evolve runtime call).2.queue = after at *
      cases outcome with
      | idle result none =>
          refine ⟨?_, unchanged rfl⟩
          rcases result with error | ⟨_ | settled⟩
          · exact Or.inl rfl
          · rfl
          · exact absurd rfl (none settled)
      | raised proposal proposed error =>
          exact ⟨Or.inr ⟨proposal, proposed, rfl⟩, added _ rfl (unambiguous proposal proposed)⟩
      | settled result proposed candidate =>
          have fresh := unambiguous result.proposal proposed
          refine ⟨queue_settled fresh, added result.entry (queue_settled fresh) ?_⟩
          rwa [EvolveResult.entry_proposal]
  | merge call =>
      have marked := queue_merge runtime distinct call
      refine ⟨⟨marked, distinct⟩, keepsFinal_merge runtime distinct unambiguous, ?_⟩
      change (ProposalQueue.ids (loop.merge runtime call).2.queue).Nodup
      rwa [marked, ids_map_markMerged]

/-- In a run whose operations are unambiguous, every update hits its own entry. -/
theorem updatesProper_of_distinct {loop : Loop} {operations : List LoopOp}
    (distinct : (ProposalQueue.ids loop.queue).Nodup)
    (unambiguous : loop.UnambiguousRun runtime operations) :
    loop.UpdatesProper runtime operations := by
  induction operations generalizing loop with
  | nil => trivial
  | cons operation rest induction =>
      obtain ⟨own, final, next⟩ := updatesOwn_of_unambiguous runtime distinct unambiguous.1
      exact ⟨own, final, induction next unambiguous.2⟩

end Loop

/-- In every run of a new loop whose operations are unambiguous, each cycle and each merge updates
the entry of its own proposal alone, and the entries of finished cycles stay as they are. -/
theorem updatesProper_run (runtime : Runtime) (stream : EventStream) (config : CognitiveConfig)
    (operations : List LoopOp)
    (unambiguous : (Loop.init stream config).UnambiguousRun runtime operations) :
    (Loop.init stream config).UpdatesProper runtime operations :=
  Loop.updatesProper_of_distinct runtime List.nodup_nil unambiguous

/-- A cycle in which the agent proposes a weight for the news, without prices to test it on. -/
def proposeNews (newValue : ℚ) : EvolveCall where
  propose _ _ _ := .ok (some (.weightChange Reference.runtime "news" (34 / 100) newValue "" ""))
  prices := []

/-- Two cycles with different values. -/
theorem updatesProper_twoValues :
    (Loop.init {} defaultConfig).UpdatesProper Reference.runtime
      [.evolve (proposeNews (29 / 100)), .evolve (proposeNews (39 / 100))] := by
  refine updatesProper_run _ _ _ _ ⟨fun proposal _ => List.not_mem_nil, ?_, trivial⟩
  intro proposal proposed
  have put : Proposal.weightChange Reference.runtime "news" (34 / 100) (39 / 100) "" "" =
      proposal :=
    Option.some.inj proposed
  rw [← put]
  decide +kernel

/-- The second cycle with a value is blocked, and its update alters the entry of the first, which
was rejected. -/
theorem secondCycle_altersFirst :
    ¬(Loop.init {} defaultConfig).UpdatesProper Reference.runtime
      [.evolve (proposeNews (29 / 100)), .evolve (proposeNews (29 / 100))] := by
  rintro ⟨-, -, -, keeps, -⟩
  let once := (Loop.init {} defaultConfig).perform Reference.runtime
    (.evolve (proposeNews (29 / 100)))
  let twice := once.perform Reference.runtime (.evolve (proposeNews (29 / 100)))
  let note (entry : QueueEntry) : Bool := (entry.verdict.bind (·.lookup "blocked")).isSome
  have rejected : (once.queue.map (·.status))[0]? = some .rejected := by decide +kernel
  have before : (once.queue.map note)[0]? = some false := by decide +kernel
  have after : (twice.queue.map note)[0]? = some true := by decide +kernel
  rw [List.getElem?_map] at rejected before after
  obtain ⟨entry, held, status⟩ := Option.map_eq_some_iff.mp rejected
  have kept : twice.queue[0]? = some entry := keeps 0 entry held (Or.inr (Or.inl status))
  rw [held, Option.map_some] at before
  rw [kept, Option.map_some, before] at after
  cases after

end TradingControl.Cognitive
