import TradingControl.Learning.ToolHistories
import TradingControl.Python.Reference

/-!
# Cadence of the grades

The grade agent counts the trade events that it lets through, and runs a cycle when their number is
a multiple of its setting.  The check of the number is reached by every execution too, so a cycle
runs again on each of them until the next trade, and an opening fill counts as a close.
-/

namespace TradingControl.Learning

open Python

/-! ## Grades -/

/-- The letters of `score_to_grade`. -/
inductive GradeLetter where
  | aPlus
  | a
  | b
  | c
  | d
  | f
deriving DecidableEq, Repr

/-- `GRADE_SEVERITY`. -/
def gradeSeverity : GradeLetter → Option String
  | .aPlus => none
  | .a => none
  | .b => some "INFO"
  | .c => some "WARNING"
  | .d => some "URGENT"
  | .f => some "CRITICAL"

/-- The settings of the grade system. -/
structure GradeSettings where
  gradeEveryNFills : ℤ := 1
  gradeActionMinFills : ℤ := 20
  retireAfterNGrades : ℤ := 3

/-- `max(int(settings.GRADE_EVERY_N_FILLS), 1)`. -/
def GradeSettings.trigger (settings : GradeSettings) : ℕ := (max settings.gradeEveryNFills 1).toNat

/-- A proposal of the grade agent. -/
inductive GradeProposal where
  | signalWeightReduction (reductionPct : ℕ) (reason : String)
  | agentSuspension (consecutiveLowGrades : ℕ) (reason : String)
  | agentRetirement (reason : String)
deriving DecidableEq, Repr

namespace GradeProposal

def isWeightReduction : GradeProposal → Bool
  | .signalWeightReduction _ _ => true
  | _ => false

def isSuspension : GradeProposal → Bool
  | .agentSuspension _ _ => true
  | _ => false

end GradeProposal

/-! ## Cycles -/

/-- The counters of the agent, and what it has published in its cycles. -/
structure GradeTally where
  fills : ℕ := 0
  consecutiveLowGrades : ℕ := 0
  cycles : ℕ := 0
  notifications : List String := []
  proposals : List GradeProposal := []
deriving DecidableEq, Repr

namespace GradeTally

/-- `score_to_grade`. -/
def scoreToGrade (score : ℚ) : GradeLetter :=
  if 9 / 10 ≤ score then .aPlus
  else if 4 / 5 ≤ score then .a
  else if 13 / 20 ≤ score then .b
  else if 1 / 2 ≤ score then .c
  else if 7 / 20 ≤ score then .d
  else .f

variable (settings : GradeSettings) (runtime : Runtime) (tally : GradeTally)

/-- The actions of `_take_grade_action` on a sample that is large enough. -/
def act (grade : GradeLetter) (scorePct : ℚ) : GradeTally :=
  match grade with
  | .c => { tally with
      proposals := tally.proposals ++ [.signalWeightReduction 30
        ("Grade C: score " ++ runtime.text scorePct ++ "%")]
      consecutiveLowGrades := tally.consecutiveLowGrades + 1 }
  | .d =>
      let low := tally.consecutiveLowGrades + 1
      { tally with
        consecutiveLowGrades := low
        proposals := if settings.retireAfterNGrades ≤ low then
          tally.proposals ++ [.agentSuspension low (toString low ++ " consecutive D grades")]
        else tally.proposals }
  | .f => { tally with
      consecutiveLowGrades := tally.consecutiveLowGrades + 1
      proposals := tally.proposals ++ [.agentRetirement
        ("Grade F: score " ++ runtime.text scorePct ++ "%")] }
  | _ => { tally with consecutiveLowGrades := 0 }

/-- `_take_grade_action`. -/
def takeGradeAction (grade : GradeLetter) (scorePct : ℚ) : GradeTally :=
  let tally := { tally with notifications := tally.notifications ++ (gradeSeverity grade).toList }
  if tally.fills < settings.gradeActionMinFills then tally
  else tally.act settings runtime grade scorePct

/-- `_compute_and_publish_grade`, with the weighted score that the metrics come to, unless they
raise. -/
def computeAndPublishGrade (score : Option ℚ) : GradeTally :=
  let tally := { tally with cycles := tally.cycles + 1 }
  match score with
  | none => tally
  | some score =>
      tally.takeGradeAction settings runtime (scoreToGrade score) (roundHalfEven 1 (score * 100))

/-- The check that an event leads to. -/
def check (score : Option ℚ) : GradeTally :=
  if tally.fills = 0 ∨ tally.fills % settings.trigger ≠ 0 then tally
  else tally.computeAndPublishGrade settings runtime score

/-- A fill is counted. -/
def count : GradeTally := { tally with fills := tally.fills + 1 }

/-- The tally with another number of fills. -/
def withFills (fills : ℕ) : GradeTally := { tally with fills := fills }

end GradeTally

/-! ## The agent -/

/-- A message, with the score that the metrics come to if a cycle runs on it. -/
abbrev GradeRead := ToolRead × Option ℚ

/-- The agent, as far as its cycles go. -/
structure GradeCycles where
  tally : GradeTally := {}
  closeDedup : List String := []
deriving DecidableEq, Repr

namespace GradeCycles

variable (settings : GradeSettings) (runtime : Runtime)

/-- `process`, as far as the cycles go.  A text that is no number would raise. -/
def process (agent : GradeCycles) : GradeRead → GradeCycles
  | (.decision _, _) => agent
  | (.event delivery, score) =>
      if delivery.isTrade then
        let (duplicate, seen) := isDuplicate agent.closeDedup delivery.data
        let agent := { agent with closeDedup := seen }
        if duplicate then agent
        else
          match delivery.data.pnl.toFloatOrZero with
          | none => agent
          | some _ => { agent with tally := agent.tally.count.check settings runtime score }
      else
        match floatOrHalf delivery.data.confidence with
        | none => agent
        | some _ => { agent with tally := agent.tally.check settings runtime score }

/-- The agent after messages. -/
def after (reads : List GradeRead) : GradeCycles := reads.foldl (process settings runtime) {}

end GradeCycles

/-! ## Closes -/

def GradeRead.delivery? : GradeRead → Option (Delivery × Option ℚ)
  | (.decision _, _) => none
  | (.event delivery, score) => some (delivery, score)

def countedTrades (reads : List GradeRead) : List (Delivery × Option ℚ) :=
  graded Prod.fst [] (reads.filterMap GradeRead.delivery?)

/-- The first event of a close, after those that have been found. -/
def addClose (closes : List (Delivery × Option ℚ)) (trade : Delivery × Option ℚ) :
    List (Delivery × Option ℚ) :=
  if trade.1.fill.closes ∧ ∀ close ∈ closes, close.1.fill.ctx ≠ trade.1.fill.ctx then
    closes ++ [trade]
  else closes

/-- The distinct closes that are processed, each with the score on its first event. -/
def closesOf (reads : List GradeRead) : List (Delivery × Option ℚ) :=
  (countedTrades reads).foldl addClose []

def GradeTally.ofCloses (settings : GradeSettings) (runtime : Runtime)
    (closes : List (Delivery × Option ℚ)) : GradeTally :=
  closes.foldl (fun tally close => tally.count.check settings runtime close.2) {}

/-- After messages, there has been a cycle for every so many closes, and the counter and the
proposals are those of the closes alone. -/
structure FollowsCloses (settings : GradeSettings) (runtime : Runtime) (reads : List GradeRead) :
    Prop where
  cycles : (GradeCycles.after settings runtime reads).tally.cycles =
    (closesOf reads).length / settings.trigger
  lowGrades : (GradeCycles.after settings runtime reads).tally.consecutiveLowGrades =
    (GradeTally.ofCloses settings runtime (closesOf reads)).consecutiveLowGrades
  weightReductions :
    (GradeCycles.after settings runtime reads).tally.proposals.countP
        GradeProposal.isWeightReduction =
      (GradeTally.ofCloses settings runtime (closesOf reads)).proposals.countP
        GradeProposal.isWeightReduction
  suspensions :
    (GradeCycles.after settings runtime reads).tally.proposals.countP GradeProposal.isSuspension =
      (GradeTally.ofCloses settings runtime (closesOf reads)).proposals.countP
        GradeProposal.isSuspension

/-- Grades follow closes all along, and no execution leads to one. -/
structure GradesFollowCloses (settings : GradeSettings) (runtime : Runtime)
    (reads : List GradeRead) : Prop where
  follows : ∀ before, before <+: reads → FollowsCloses settings runtime before
  quiet : ∀ before fill score, before ++ [(.event (.execution fill), score)] <+: reads →
    (GradeCycles.after settings runtime (before ++ [(.event (.execution fill), score)])).tally =
      (GradeCycles.after settings runtime before).tally

/-- An execution is read while no cycle is due, and a trade event completes a group of counted
events exactly if it completes one of closes. -/
def InStep (settings : GradeSettings) (before : List GradeRead) (read : GradeRead) : Prop :=
  match read with
  | (.decision _, _) => True
  | (.event (.execution _), _) =>
      (countedTrades before).length = 0 ∨ (countedTrades before).length % settings.trigger ≠ 0
  | (.event _, _) =>
      (countedTrades (before ++ [read])).length / settings.trigger =
        (closesOf (before ++ [read])).length / settings.trigger

/-! ## Steps -/

namespace GradeTally

variable {settings : GradeSettings} {runtime : Runtime} {tally : GradeTally}

theorem cycles_takeGradeAction (grade : GradeLetter) (scorePct : ℚ) :
    (tally.takeGradeAction settings runtime grade scorePct).cycles = tally.cycles := by
  simp only [takeGradeAction]
  split_ifs
  · rfl
  · cases grade <;> rfl

theorem cycles_computeAndPublishGrade (score : Option ℚ) :
    (tally.computeAndPublishGrade settings runtime score).cycles = tally.cycles + 1 := by
  cases score with
  | none => rfl
  | some score => exact cycles_takeGradeAction _ _

theorem fills_computeAndPublishGrade (score : Option ℚ) :
    (tally.computeAndPublishGrade settings runtime score).fills = tally.fills := by
  cases score with
  | none => rfl
  | some score =>
      simp only [computeAndPublishGrade, takeGradeAction]
      split_ifs
      · rfl
      · cases scoreToGrade score <;> rfl

theorem fills_check (score : Option ℚ) :
    (tally.check settings runtime score).fills = tally.fills := by
  rw [check]
  split_ifs
  · rfl
  · exact fills_computeAndPublishGrade score

/-- No cycle is due. -/
theorem check_of_quiet (quiet : tally.fills = 0 ∨ tally.fills % settings.trigger ≠ 0)
    (score : Option ℚ) : tally.check settings runtime score = tally := if_pos quiet

theorem cycles_check_of_due (due : ¬(tally.fills = 0 ∨ tally.fills % settings.trigger ≠ 0))
    (score : Option ℚ) :
    (tally.check settings runtime score).cycles = tally.cycles + 1 := by
  rw [check, if_neg due, cycles_computeAndPublishGrade]

theorem cycles_count_check (score : Option ℚ) (upToDate : tally.cycles =
    tally.fills / settings.trigger) :
    (tally.count.check settings runtime score).cycles =
      (tally.fills + 1) / settings.trigger := by
  rw [Nat.succ_div]
  split_ifs with divides
  · have due : ¬(tally.count.fills = 0 ∨ tally.count.fills % settings.trigger ≠ 0) := by
      simpa [count] using Nat.mod_eq_zero_of_dvd divides
    rw [cycles_check_of_due due, ← upToDate]
    rfl
  · have quiet : tally.count.fills % settings.trigger ≠ 0 := fun zero =>
      divides (Nat.dvd_of_mod_eq_zero zero)
    rw [check_of_quiet (Or.inr quiet), ← upToDate]
    rfl

end GradeTally

namespace GradeCycles

variable {settings : GradeSettings} {runtime : Runtime} {agent : GradeCycles}

theorem after_append (reads : List GradeRead) (read : GradeRead) :
    after settings runtime (reads ++ [read]) =
      process settings runtime (after settings runtime reads) read := by
  rw [after, List.foldl_append]
  rfl

theorem process_execution (fill : PublishedFill) (score : Option ℚ) :
    process settings runtime agent (.event (.execution fill), score) =
      { agent with tally := agent.tally.check settings runtime score } := rfl

theorem process_trade {delivery : Delivery} (isTrade : delivery.isTrade = true)
    (score : Option ℚ) :
    process settings runtime agent (.event delivery, score) =
      { tally := if (isDuplicate agent.closeDedup delivery.data).1 then agent.tally
          else agent.tally.count.check settings runtime score
        closeDedup := (isDuplicate agent.closeDedup delivery.data).2 } := by
  simp only [process, isTrade, delivery.toFloatOrZero_pnl]
  cases (isDuplicate agent.closeDedup delivery.data).1 <;> rfl

theorem closeDedup_after (reads : List GradeRead) :
    (after settings runtime reads).closeDedup =
      (reads.filterMap GradeRead.delivery?).foldl (remembered Prod.fst) [] := by
  induction reads using List.reverseRecOn with
  | nil => rfl
  | append_singleton reads read induction =>
      rw [after_append, List.filterMap_append, List.foldl_append, ← induction]
      obtain ⟨message, score⟩ := read
      cases message with
      | decision made => rfl
      | event delivery =>
          cases isTrade : delivery.isTrade with
          | true =>
              rw [process_trade isTrade]
              simp [GradeRead.delivery?, remembered, isTrade]
          | false =>
              cases delivery with
              | execution fill =>
                  rw [process_execution]
                  simp [GradeRead.delivery?, remembered, Delivery.isTrade]
              | performance fill => cases isTrade
              | completed fill closes => cases isTrade

end GradeCycles

/-! ## Counted trades -/

section

variable {reads : List GradeRead} {settings : GradeSettings} {runtime : Runtime}

@[simp]
theorem countedTrades_decision (made : ToolDecision) (score : Option ℚ) :
    countedTrades (reads ++ [(.decision made, score)]) = countedTrades reads := by
  rw [countedTrades, List.filterMap_append]
  exact congrArg (graded Prod.fst []) (List.append_nil _)

@[simp]
theorem countedTrades_execution (fill : PublishedFill) (score : Option ℚ) :
    countedTrades (reads ++ [(.event (.execution fill), score)]) = countedTrades reads := by
  rw [countedTrades, List.filterMap_append, graded_append]
  exact List.append_nil _

theorem countedTrades_trade (settings : GradeSettings) (runtime : Runtime) {delivery : Delivery}
    (isTrade : delivery.isTrade = true) (score : Option ℚ) :
    countedTrades (reads ++ [(.event delivery, score)]) = countedTrades reads ++
      if (isDuplicate (GradeCycles.after settings runtime reads).closeDedup delivery.data).1
      then [] else [(delivery, score)] := by
  rw [countedTrades, List.filterMap_append, graded_append, GradeCycles.closeDedup_after]
  congr 1
  exact @graded_trade _ Prod.fst (delivery, score) isTrade _ []

theorem closesOf_congr {more : List GradeRead} (same : countedTrades more = countedTrades reads) :
    closesOf more = closesOf reads := by
  rw [closesOf, closesOf, same]

/-- The agent counts the trades that are let through. -/
theorem fills_after (settings : GradeSettings) (runtime : Runtime) (reads : List GradeRead) :
    (GradeCycles.after settings runtime reads).tally.fills = (countedTrades reads).length := by
  induction reads using List.reverseRecOn with
  | nil => rfl
  | append_singleton reads read induction =>
      rw [GradeCycles.after_append]
      obtain ⟨message, score⟩ := read
      cases message with
      | decision made => rw [countedTrades_decision]; exact induction
      | event delivery =>
          cases isTrade : delivery.isTrade with
          | true =>
              rw [GradeCycles.process_trade isTrade, countedTrades_trade settings runtime isTrade]
              split_ifs
              · rw [List.append_nil]
                exact induction
              · rw [GradeTally.fills_check, GradeTally.count, induction, List.length_append]
                rfl
          | false =>
              cases delivery with
              | execution fill =>
                  rw [GradeCycles.process_execution, GradeTally.fills_check,
                    countedTrades_execution]
                  exact induction
              | performance fill => cases isTrade
              | completed fill closes => cases isTrade

theorem length_foldl_addClose_le (trades closes : List (Delivery × Option ℚ)) :
    (trades.foldl addClose closes).length ≤ closes.length + trades.length := by
  induction trades generalizing closes with
  | nil => exact le_rfl
  | cons trade trades induction =>
      have step : (addClose closes trade).length ≤ closes.length + 1 := by
        rw [addClose]
        split_ifs
        · exact (List.length_append).le
        · exact Nat.le_succ _
      have rest := induction (addClose closes trade)
      rw [List.foldl_cons, List.length_cons]
      omega

theorem length_closesOf_le (reads : List GradeRead) :
    (closesOf reads).length ≤ (countedTrades reads).length :=
  (length_foldl_addClose_le _ []).trans (Nat.zero_add _).le

/-! ## Grades follow closes -/

/-- The cycles that have run are those of the counted trades. -/
def UpToDate (settings : GradeSettings) (runtime : Runtime) (reads : List GradeRead) : Prop :=
  (GradeCycles.after settings runtime reads).tally.cycles =
    (countedTrades reads).length / settings.trigger

/-- A trade event leaves the cycles up to date. -/
theorem UpToDate.trade (upToDate : UpToDate settings runtime reads) {delivery : Delivery}
    (isTrade : delivery.isTrade = true) (score : Option ℚ) :
    UpToDate settings runtime (reads ++ [(.event delivery, score)]) := by
  rw [UpToDate, GradeCycles.after_append, GradeCycles.process_trade isTrade,
    countedTrades_trade settings runtime isTrade]
  split_ifs
  · rw [List.append_nil]
    exact upToDate
  · rw [UpToDate, ← fills_after settings runtime] at upToDate
    rw [GradeTally.cycles_count_check score upToDate, fills_after, List.length_append]
    rfl

/-- An execution that leads to no cycle is read while none is due. -/
theorem quiet_of_cycles_execution {fill : PublishedFill} {score : Option ℚ}
    (same : (GradeCycles.after settings runtime
        (reads ++ [(.event (.execution fill), score)])).tally.cycles =
      (GradeCycles.after settings runtime reads).tally.cycles) :
    (countedTrades reads).length = 0 ∨ (countedTrades reads).length % settings.trigger ≠ 0 := by
  rw [← fills_after settings runtime]
  by_contra due
  rw [GradeCycles.after_append, GradeCycles.process_execution,
    GradeTally.cycles_check_of_due due] at same
  exact Nat.succ_ne_self _ same

/-- An execution is read while no cycle is due. -/
theorem after_execution_of_quiet (quiet : (countedTrades reads).length = 0 ∨
    (countedTrades reads).length % settings.trigger ≠ 0) (fill : PublishedFill)
    (score : Option ℚ) :
    GradeCycles.after settings runtime (reads ++ [(.event (.execution fill), score)]) =
      GradeCycles.after settings runtime reads := by
  rw [← fills_after settings runtime] at quiet
  rw [GradeCycles.after_append, GradeCycles.process_execution, GradeTally.check_of_quiet quiet]

theorem after_decision (made : ToolDecision) (score : Option ℚ) :
    GradeCycles.after settings runtime (reads ++ [(.decision made, score)]) =
      GradeCycles.after settings runtime reads := by
  rw [GradeCycles.after_append]
  rfl

/-- Cycles that follow the closes follow the counted trades. -/
theorem upToDate_of_cycles (cycles : ∀ before, before <+: reads →
    (GradeCycles.after settings runtime before).tally.cycles =
      (closesOf before).length / settings.trigger) : UpToDate settings runtime reads := by
  induction reads using List.reverseRecOn with
  | nil => exact (Nat.zero_div _).symm
  | append_singleton reads read induction =>
      have earlier := induction fun before within =>
        cycles before (within.trans (List.prefix_append _ _))
      have here := cycles reads (List.prefix_append _ _)
      have next := cycles (reads ++ [read]) List.prefix_rfl
      obtain ⟨message, score⟩ := read
      cases message with
      | decision made =>
          rw [UpToDate, after_decision, countedTrades_decision]
          exact earlier
      | event delivery =>
          cases delivery with
          | execution fill =>
              rw [closesOf_congr (countedTrades_execution fill score), ← here] at next
              rw [UpToDate, next, countedTrades_execution]
              exact earlier
          | performance fill => exact earlier.trade rfl score
          | completed fill closes => exact earlier.trade rfl score

/-- What the agent has counted and done, against what the closes alone come to. -/
structure Synced (settings : GradeSettings) (runtime : Runtime) (reads : List GradeRead) :
    Prop where
  upToDate : UpToDate settings runtime reads
  groups : (countedTrades reads).length / settings.trigger =
    (closesOf reads).length / settings.trigger
  tally : (GradeCycles.after settings runtime reads).tally.withFills (closesOf reads).length =
    GradeTally.ofCloses settings runtime (closesOf reads)

/-- Counters that have passed the same multiples are equal at a multiple. -/
theorem eq_of_div_eq_of_dvd {size first second : ℕ} (le : first ≤ second)
    (same : second / size = first / size) (divides : size ∣ second) : first = second := by
  refine le.antisymm ?_
  calc second = second / size * size := (Nat.div_mul_cancel divides).symm
    _ = first / size * size := by rw [same]
    _ ≤ first := Nat.div_mul_le_self first size

theorem closesOf_counted (settings : GradeSettings) (runtime : Runtime) {delivery : Delivery}
    (isTrade : delivery.isTrade = true) (score : Option ℚ)
    (fresh : (isDuplicate (GradeCycles.after settings runtime reads).closeDedup
      delivery.data).1 = false) :
    countedTrades (reads ++ [(.event delivery, score)]) = countedTrades reads ++ [(delivery, score)]
      ∧ closesOf (reads ++ [(.event delivery, score)]) =
        addClose (closesOf reads) (delivery, score) := by
  have counted : countedTrades (reads ++ [(.event delivery, score)]) =
      countedTrades reads ++ [(delivery, score)] := by
    rw [countedTrades_trade settings runtime isTrade, fresh]
    rfl
  refine ⟨counted, ?_⟩
  rw [closesOf, counted, List.foldl_append]
  rfl

theorem ofCloses_append (closes : List (Delivery × Option ℚ)) (close : Delivery × Option ℚ) :
    GradeTally.ofCloses settings runtime (closes ++ [close]) =
      (GradeTally.ofCloses settings runtime closes).count.check settings runtime close.2 := by
  rw [GradeTally.ofCloses, List.foldl_append]
  rfl

section

variable (synced : Synced settings runtime reads) {more : List GradeRead}
  {trade : Delivery × Option ℚ} (closes : closesOf more = addClose (closesOf reads) trade)

include synced closes

theorem Synced.tally_of_due (all : (closesOf more).length = (countedTrades reads).length + 1) :
    ((GradeCycles.after settings runtime reads).tally.count.check settings runtime
        trade.2).withFills (closesOf more).length =
      GradeTally.ofCloses settings runtime (closesOf more) := by
  have fills := fills_after settings runtime reads
  have atMost := length_closesOf_le reads
  have next : ((GradeCycles.after settings runtime reads).tally.count.check settings runtime
      trade.2).fills = (closesOf more).length :=
    (GradeTally.fills_check trade.2).trans ((congrArg Nat.succ fills).trans all.symm)
  have same : closesOf more = closesOf reads ++ [trade] := by
    rw [closes, addClose] at all ⊢
    split_ifs at all ⊢
    · rfl
    · omega
  have before : (GradeCycles.after settings runtime reads).tally =
      GradeTally.ofCloses settings runtime (closesOf reads) := by
    rw [same, List.length_append, List.length_singleton] at all
    rw [← synced.tally, Nat.succ.inj all, ← fills]
    rfl
  rw [← next, same, ofCloses_append, ← before]
  rfl

/-- No cycle is due for the agent, and none for the closes. -/
theorem Synced.tally_of_quiet (quiet : ¬settings.trigger ∣ (countedTrades reads).length + 1)
    (same : (closesOf more).length / settings.trigger =
      (closesOf reads).length / settings.trigger) :
    ((GradeCycles.after settings runtime reads).tally.count.check settings runtime
        trade.2).withFills (closesOf more).length =
      GradeTally.ofCloses settings runtime (closesOf more) := by
  have noCycle : (GradeCycles.after settings runtime reads).tally.count.fills %
      settings.trigger ≠ 0 := by
    rw [GradeTally.count, fills_after]
    exact fun zero => quiet (Nat.dvd_of_mod_eq_zero zero)
  rw [GradeTally.check_of_quiet (Or.inr noCycle)]
  rw [closes, addClose] at same ⊢
  split_ifs at same ⊢
  · have noClose : ¬settings.trigger ∣ (closesOf reads).length + 1 := by
      intro divides
      rw [List.length_append, List.length_singleton, Nat.succ_div, if_pos divides] at same
      exact Nat.succ_ne_self _ same
    rw [ofCloses_append, ← synced.tally, List.length_append, GradeTally.check_of_quiet]
    · rfl
    · exact Or.inr fun zero => noClose (Nat.dvd_of_mod_eq_zero zero)
  · exact synced.tally

end

/-- A trade event that completes a group of counted events exactly if it completes one of closes
does for the agent what it does for the closes alone. -/
theorem Synced.trade (synced : Synced settings runtime reads) {delivery : Delivery}
    (isTrade : delivery.isTrade = true) (score : Option ℚ)
    (groups : (countedTrades (reads ++ [(.event delivery, score)])).length / settings.trigger =
      (closesOf (reads ++ [(.event delivery, score)])).length / settings.trigger) :
    Synced settings runtime (reads ++ [(.event delivery, score)]) := by
  refine ⟨synced.upToDate.trade isTrade score, groups, ?_⟩
  rw [GradeCycles.after_append, GradeCycles.process_trade isTrade]
  cases fresh : (isDuplicate (GradeCycles.after settings runtime reads).closeDedup
      delivery.data).1 with
  | true =>
      have same : countedTrades (reads ++ [(.event delivery, score)]) = countedTrades reads := by
        rw [countedTrades_trade settings runtime isTrade, fresh]
        exact List.append_nil _
      rw [closesOf_congr same]
      exact synced.tally
  | false =>
      obtain ⟨counted, closes⟩ := closesOf_counted settings runtime isTrade score fresh
      have atMost := length_closesOf_le (reads ++ [(.event delivery, score)])
      rw [counted, List.length_append, List.length_singleton] at groups atMost
      simp only [Bool.false_eq_true, if_false]
      by_cases due : settings.trigger ∣ (countedTrades reads).length + 1
      · exact synced.tally_of_due closes (eq_of_div_eq_of_dvd atMost groups due)
      · rw [Nat.succ_div, if_neg due, Nat.add_zero, synced.groups] at groups
        exact synced.tally_of_quiet closes due groups.symm

/-- Messages that are in step keep the agent in step with the closes. -/
theorem synced_of_inStep (inStep : ∀ before read, before ++ [read] <+: reads →
    InStep settings before read) : Synced settings runtime reads := by
  induction reads using List.reverseRecOn with
  | nil => exact ⟨(Nat.zero_div _).symm, rfl, rfl⟩
  | append_singleton reads read induction =>
      have synced := induction fun before read within =>
        inStep before read (within.trans (List.prefix_append _ _))
      have here := inStep reads read List.prefix_rfl
      obtain ⟨message, score⟩ := read
      cases message with
      | decision made =>
          have same : countedTrades (reads ++ [(.decision made, score)]) = countedTrades reads :=
            countedTrades_decision made score
          refine ⟨?_, ?_, ?_⟩
          · rw [UpToDate, after_decision, same]
            exact synced.upToDate
          · rw [closesOf_congr same, same]
            exact synced.groups
          · rw [closesOf_congr same, after_decision]
            exact synced.tally
      | event delivery =>
          cases delivery with
          | execution fill =>
              have same : countedTrades (reads ++ [(.event (.execution fill), score)]) =
                  countedTrades reads := countedTrades_execution fill score
              refine ⟨?_, ?_, ?_⟩
              · rw [UpToDate, after_execution_of_quiet here, same]
                exact synced.upToDate
              · rw [closesOf_congr same, same]
                exact synced.groups
              · rw [closesOf_congr same, after_execution_of_quiet here]
                exact synced.tally
          | performance fill => exact synced.trade rfl score here
          | completed fill closes => exact synced.trade rfl score here

theorem Synced.follows (synced : Synced settings runtime reads) :
    FollowsCloses settings runtime reads := by
  have low := congrArg GradeTally.consecutiveLowGrades synced.tally
  have proposals := congrArg GradeTally.proposals synced.tally
  exact ⟨synced.upToDate.trans synced.groups, low,
    congrArg (List.countP GradeProposal.isWeightReduction) proposals,
    congrArg (List.countP GradeProposal.isSuspension) proposals⟩

end

/-- Grades follow closes exactly while all messages are in step. -/
theorem gradesFollowCloses_iff (settings : GradeSettings) (runtime : Runtime)
    (reads : List GradeRead) :
    GradesFollowCloses settings runtime reads ↔
      ∀ before read, before ++ [read] <+: reads → InStep settings before read := by
  constructor
  · intro grades before read within
    have upToDate : UpToDate settings runtime (before ++ [read]) :=
      upToDate_of_cycles fun earlier inside =>
        (grades.follows earlier (inside.trans within)).cycles
    have follows := (grades.follows _ within).cycles
    obtain ⟨message, score⟩ := read
    cases message with
    | decision made => trivial
    | event delivery =>
        cases delivery with
        | execution fill =>
            exact quiet_of_cycles_execution
              (congrArg GradeTally.cycles (grades.quiet before fill score within))
        | performance fill => exact upToDate.symm.trans follows
        | completed fill closes => exact upToDate.symm.trans follows
  · intro inStep
    refine ⟨fun before within => ?_, fun before fill score within => ?_⟩
    · exact (synced_of_inStep fun earlier read inside =>
        inStep earlier read (inside.trans within)).follows
    · exact congrArg GradeCycles.tally (after_execution_of_quiet (inStep _ _ within) fill score)

/-- With one close, the execution that is read after it leads to a second cycle. -/
theorem execution_after_close :
    ¬∀ reads : List GradeRead, GradesFollowCloses {} Reference.runtime reads := by
  intro always
  let fill : PublishedFill := .ofUnit "order-2" "trace-2" "sell" (7 / 10) (some 5)
  have cycles := ((always [(.event (.performance fill), some (11 / 20)),
    (.event (.execution fill), some (11 / 20))]).follows _ List.prefix_rfl).cycles
  revert cycles
  decide +kernel

end TradingControl.Learning
