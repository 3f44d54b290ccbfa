import Mathlib.Algebra.Order.BigOperators.Group.List
import TradingControl.Learning.GradeCadence

/-!
# Grades and promotions of the agents

The dashboard grades every agent on its own telemetry: a blend of the dimensions that have data,
capped by the share of the evidence that they are.  A snapshot of the grade is recorded now and
then, and an agent whose newest snapshots are all of the best grades is promoted.
-/

namespace TradingControl.Dashboard

open Python

/-! ## Telemetry -/

structure Heartbeat where
  status : Option String := none
  eventCount : Option ℤ := none

/-- A run of an agent; a latency that is no number is missing. -/
structure AgentRun where
  status : Option String := none
  latencyMs : Option ℚ := none

/-- The realized record of a trading agent. -/
structure PnlStats where
  tradeCount : Option ℤ := none
  winRate : Option ℚ := none
  totalPnl : Option ℚ := none

/-- `ALL_AGENT_NAMES`. -/
def allAgentNames : List String :=
  ["SIGNAL_AGENT", "REASONING_AGENT", "EXECUTION_ENGINE", "GRADE_AGENT", "IC_UPDATER",
    "REFLECTION_AGENT", "STRATEGY_PROPOSER", "NOTIFICATION_AGENT", "CHALLENGER_AGENT",
    "PROPOSAL_APPLIER"]

/-- `PNL_GRADED_AGENTS`. -/
def pnlGradedAgents : List String := ["SIGNAL_AGENT", "REASONING_AGENT", "EXECUTION_ENGINE"]

/-! ## Dimensions -/

inductive DimensionKey where
  | liveness
  | successRate
  | throughput
  | latency
  | pnl
deriving DecidableEq, Repr

/-- `_DIM_WEIGHTS`. -/
def DimensionKey.weight : DimensionKey → ℚ
  | .liveness => 40 / 100
  | .successRate => 30 / 100
  | .throughput => 15 / 100
  | .latency => 15 / 100
  | .pnl => 50 / 100

/-- `_Dimension`. -/
structure Dimension where
  key : DimensionKey
  value : ℚ
  available : Bool
deriving DecidableEq, Repr

/-- A dimension without data. -/
def Dimension.missing (key : DimensionKey) : Dimension := ⟨key, 0, false⟩

/-- `_status_text`. -/
def statusText (raw : Option String) : String := lower (strip (orDefault raw ""))

/-- `_liveness_dimension`. -/
def livenessDimension (heartbeat : Heartbeat) : Dimension :=
  let status := statusText heartbeat.status
  if status ∈ ["active", "live", "running"] then ⟨.liveness, 1, true⟩
  else if status ∈ ["stale", "idle"] then ⟨.liveness, 45 / 100, true⟩
  else .missing .liveness

/-- `_run_tallies`: completed and failed runs. -/
def runTallies (runs : List AgentRun) : ℕ × ℕ :=
  (runs.countP fun run => statusText run.status = "completed",
    runs.countP fun run => statusText run.status ∈ ["failed", "error"])

/-- `_success_dimension`. -/
def successDimension (completed terminal : ℕ) : Dimension :=
  if terminal = 0 then .missing .successRate else ⟨.successRate, completed / terminal, true⟩

/-- `AGENT_PERF_THROUGHPUT_SATURATION`. -/
def throughputSaturation : ℚ := 100

/-- `_throughput_dimension`. -/
def throughputDimension (heartbeat : Heartbeat) : Dimension :=
  let events := heartbeat.eventCount.getD 0
  if events = 0 then .missing .throughput
  else ⟨.throughput, min (events / throughputSaturation) 1, true⟩

/-- `AGENT_PNL_MIN_TRADES`. -/
def pnlMinTrades : ℤ := 20

/-- `_pnl_dimension`. -/
def pnlDimension (pnlStats : Option PnlStats) : Dimension :=
  match pnlStats with
  | none => .missing .pnl
  | some stats =>
      if stats.tradeCount.getD 0 < pnlMinTrades then .missing .pnl
      else ⟨.pnl, min (max (stats.winRate.getD 0) 0) 1, true⟩

/-- `_p95`. -/
def p95 (values : List ℚ) : ℚ :=
  let ordered := values.insertionSort (· ≤ ·)
  let place := min (ordered.length - 1)
    (nearest (95 / 100 * ((ordered.length - 1 : ℕ) : ℚ))).toNat
  ordered.getD place 0

/-- `CIRCUIT_BREAKER_MAX_LATENCY_MS`. -/
def circuitBreakerMaxLatencyMs : ℚ := 5000

/-- `_latency_dimension`. -/
def latencyDimension (runs : List AgentRun) : Dimension :=
  let latencies := runs.filterMap AgentRun.latencyMs
  if latencies = [] then .missing .latency
  else ⟨.latency, 1 - min (p95 latencies / circuitBreakerMaxLatencyMs) 1, true⟩

/-- The dimensions of an agent; realized profit is one of a trading agent only. -/
def dimensions (agentName : String) (heartbeat : Heartbeat) (runs : List AgentRun)
    (pnlStats : Option PnlStats) : List Dimension :=
  let (completed, failed) := runTallies runs
  [livenessDimension heartbeat, successDimension completed (completed + failed),
    throughputDimension heartbeat, latencyDimension runs] ++
  if agentName ∈ pnlGradedAgents then [pnlDimension pnlStats] else []

/-! ## Grades -/

inductive Tier where
  | promoted
  | trusted
  | standard
  | probation
  | underReview
  | unrated
deriving DecidableEq, Repr

/-- `GRADE_TO_TIER`. -/
def gradeToTier : Learning.GradeLetter → Tier
  | .aPlus => .promoted
  | .a => .promoted
  | .b => .trusted
  | .c => .standard
  | .d => .probation
  | .f => .underReview

structure AgentGrade where
  name : String
  status : String
  grade : Option Learning.GradeLetter
  score : Option ℚ
  scorePct : Option ℚ
  tier : Tier
  promoted : Bool := false
  gradeStreak : ℕ := 0
  eventCount : ℤ
  totalRuns : ℕ
  completedRuns : ℕ
  failedRuns : ℕ
  dimensions : List Dimension

def weightOf (dims : List Dimension) : ℚ := (dims.map fun dim => dim.key.weight).sum

def availableOf (dims : List Dimension) : List Dimension := dims.filter Dimension.available

/-- The share of the weight that has data. -/
def coverage (dims : List Dimension) : ℚ :=
  if weightOf dims ≠ 0 then weightOf (availableOf dims) / weightOf dims else 0

/-- Some dimension other than being alive has data. -/
def workAvailable (dims : List Dimension) : Bool :=
  (availableOf dims).any fun dim => dim.key ≠ .liveness

/-- The blend of the dimensions with data, capped by their coverage. -/
def blend (dims : List Dimension) : ℚ :=
  let raw := ((availableOf dims).map fun dim => dim.value * dim.key.weight).sum /
    weightOf (availableOf dims)
  min (max (raw * coverage dims) 0) 1

/-- `_grade_agent`. -/
def gradeAgent (agentName : String) (heartbeat : Heartbeat) (runs : List AgentRun)
    (pnlStats : Option PnlStats) : AgentGrade :=
  let (completed, failed) := runTallies runs
  let dims := dimensions agentName heartbeat runs pnlStats
  let score := if workAvailable dims then some (roundHalfEven 4 (blend dims)) else none
  let letter := score.map Learning.GradeTally.scoreToGrade
  { name := agentName
    status := if workAvailable dims then orDefault heartbeat.status "UNKNOWN"
      else "INSUFFICIENT_DATA"
    grade := letter
    score
    scorePct := score.map fun score => roundHalfEven 1 (score * 100)
    tier := (letter.map gradeToTier).getD .unrated
    eventCount := heartbeat.eventCount.getD 0
    totalRuns := runs.length
    completedRuns := completed
    failedRuns := failed
    dimensions := dims.map fun dim => { dim with value := roundHalfEven 4 dim.value } }

/-! ## Promotion -/

/-- `_PROMOTION_GRADES`. -/
def promotionGrades : List Learning.GradeLetter := [.a, .aPlus]

/-- A recorded grade. -/
structure Snapshot where
  grade : Learning.GradeLetter
  scorePct : Option ℚ
  tier : Tier
  timestamp : ℚ

def Snapshot.isPromotion (snapshot : Snapshot) : Bool := snapshot.grade ∈ promotionGrades

/-- `_streak_from_history`. -/
def streakFromHistory (history : List Snapshot) : ℕ :=
  (history.takeWhile Snapshot.isPromotion).length

/-- `AGENT_PROMOTION_STREAK`. -/
def agentPromotionStreak : ℕ := 5

/-- `AGENT_PNL_PROMOTION_MIN_WIN_RATE`. -/
def pnlPromotionMinWinRate : ℚ := 55 / 100

/-- `_pnl_clears_promotion_gate`. -/
def pnlClearsPromotionGate (pnlStats : Option PnlStats) : Bool :=
  match pnlStats with
  | none => false
  | some stats =>
      if stats.tradeCount.getD 0 < pnlMinTrades then false
      else if stats.winRate.getD 0 < pnlPromotionMinWinRate then false
      else 0 < stats.totalPnl.getD 0

/-- `_finalize_promotion`, without a history where no store is installed. -/
def finalizePromotion (history : Option (List Snapshot)) (agent : AgentGrade)
    (pnlStats : Option PnlStats) : AgentGrade :=
  let best := agent.grade.any (· ∈ promotionGrades)
  let streak := match history with
    | none => if best then 1 else 0
    | some history => streakFromHistory history
  let promoted := best && agentPromotionStreak ≤ streak &&
    (agent.name ∉ pnlGradedAgents || pnlClearsPromotionGate pnlStats)
  { agent with
    tier := if promoted then .promoted else if best then .trusted else agent.tier
    promoted
    gradeStreak := streak }

/-! ## History -/

/-- `AGENT_GRADE_HISTORY_MAX`. -/
def agentGradeHistoryMax : ℕ := 50

/-- `AGENT_GRADE_SNAPSHOT_INTERVAL_SECONDS`. -/
def agentGradeSnapshotIntervalSeconds : ℚ := 300

/-- The recorded grades of each agent, the newest first. -/
abbrev GradeHistories := String → List Snapshot

/-- `list_agent_grades`. -/
def listAgentGrades (histories : GradeHistories) (agentName : String) : List Snapshot :=
  (histories agentName).take agentGradeHistoryMax

/-- `record_agent_grade`. -/
def recordAgentGrade (histories : GradeHistories) (agentName : String) (snapshot : Snapshot) :
    GradeHistories :=
  Function.update histories agentName
    ((snapshot :: histories agentName).take agentGradeHistoryMax)

/-- `_should_record`, at a time. -/
def shouldRecord (history : List Snapshot) (grade : Learning.GradeLetter) (now : ℚ) : Bool :=
  match history with
  | [] => true
  | latest :: _ =>
      latest.grade ≠ grade || agentGradeSnapshotIntervalSeconds ≤ now - latest.timestamp

/-- What a tick finds of an agent, and when it checks the history and stamps a snapshot. -/
structure Turn where
  heartbeat : Heartbeat := {}
  runs : List AgentRun := []
  pnlStats : Option PnlStats := none
  checked : ℚ
  stamped : ℚ
  ordered : checked ≤ stamped

def snapshotFor (history : List Snapshot) (agentName : String) (turn : Turn) : Option Snapshot :=
  let graded := gradeAgent agentName turn.heartbeat turn.runs turn.pnlStats
  match graded.grade with
  | none => none
  | some grade =>
      if shouldRecord history grade turn.checked then
        some
          { grade
            scorePct := graded.scorePct
            tier := graded.tier
            timestamp := turn.stamped }
      else none

/-- The turn of one agent, with the number of snapshots that are written. -/
def recordSnapshot (tick : String → Turn) (state : GradeHistories × ℕ) (agentName : String) :
    GradeHistories × ℕ :=
  (snapshotFor (listAgentGrades state.1 agentName) agentName (tick agentName)).elim state
    fun snapshot => (recordAgentGrade state.1 agentName snapshot, state.2 + 1)

/-- `record_grade_snapshots`. -/
def recordGradeSnapshots (histories : GradeHistories) (tick : String → Turn) : GradeHistories × ℕ :=
  allAgentNames.foldl (recordSnapshot tick) (histories, 0)

/-! ## Laws of the grades -/

/-- Telemetry whose counts and latencies are not negative. -/
structure Evidence where
  heartbeat : Heartbeat
  runs : List AgentRun
  pnlStats : Option PnlStats
  events_nonneg : ∀ count ∈ heartbeat.eventCount, 0 ≤ count
  latencies_nonneg : ∀ run ∈ runs, ∀ latency ∈ run.latencyMs, 0 ≤ latency

def Evidence.dimensions (evidence : Evidence) (agentName : String) : List Dimension :=
  Dashboard.dimensions agentName evidence.heartbeat evidence.runs evidence.pnlStats

def Evidence.grade (evidence : Evidence) (agentName : String) : AgentGrade :=
  gradeAgent agentName evidence.heartbeat evidence.runs evidence.pnlStats

/-- The dimension keeps its data or gains some, and its value does not fall. -/
structure Dimension.Rises (first second : Dimension) : Prop where
  key : first.key = second.key
  value : first.available = true → second.available = true ∧ first.value ≤ second.value

/-- What the grade of an agent keeps to. -/
structure EvidenceLaws (agentName : String) : Prop where
  bounded : ∀ (evidence : Evidence) score, (evidence.grade agentName).score = some score →
    ∃ exact, 0 ≤ exact ∧ exact ≤ coverage (evidence.dimensions agentName) ∧
      score = roundHalfEven 4 exact
  rising : ∀ (evidence other : Evidence) {score otherScore},
    (evidence.dimensions agentName).Forall₂ Dimension.Rises (other.dimensions agentName) →
    (evidence.grade agentName).score = some score →
    (other.grade agentName).score = some otherScore → score ≤ otherScore
  given : ∀ evidence : Evidence, (evidence.grade agentName).score.isSome = true ↔
    ∃ dim ∈ evidence.dimensions agentName, dim.available = true ∧ dim.key ≠ .liveness
  gated : ∀ (evidence : Evidence) history, agentName ∈ pnlGradedAgents →
    pnlClearsPromotionGate evidence.pnlStats = false →
    (finalizePromotion history (evidence.grade agentName) evidence.pnlStats).promoted = false ∧
    (finalizePromotion history (evidence.grade agentName) evidence.pnlStats).tier ≠ .promoted

/-! ## Values -/

/-- The value of a dimension is a share. -/
def Dimension.Sound (dim : Dimension) : Prop := 0 ≤ dim.value ∧ dim.value ≤ 1

theorem Dimension.sound_missing (key : DimensionKey) : (Dimension.missing key).Sound :=
  ⟨le_rfl, zero_le_one⟩

theorem livenessDimension_sound (heartbeat : Heartbeat) : (livenessDimension heartbeat).Sound := by
  rw [livenessDimension]
  split_ifs
  · exact ⟨zero_le_one, le_rfl⟩
  · exact ⟨by norm_num, by norm_num⟩
  · exact Dimension.sound_missing _

theorem successDimension_sound (completed failed : ℕ) :
    (successDimension completed (completed + failed)).Sound := by
  rw [successDimension]
  split_ifs with nothing
  · exact Dimension.sound_missing _
  · refine ⟨by positivity, div_le_one_of_le₀ ?_ (by positivity)⟩
    push_cast
    exact le_add_of_nonneg_right (by positivity)

theorem throughputDimension_sound {heartbeat : Heartbeat}
    (nonneg : ∀ count ∈ heartbeat.eventCount, 0 ≤ count) :
    (throughputDimension heartbeat).Sound := by
  have events : (0 : ℚ) ≤ heartbeat.eventCount.getD 0 := by
    cases counted : heartbeat.eventCount with
    | none => exact le_rfl
    | some count => exact_mod_cast nonneg count counted
  rw [throughputDimension]
  split_ifs
  · exact Dimension.sound_missing _
  · refine ⟨le_min (div_nonneg events ?_) zero_le_one, min_le_right _ _⟩
    norm_num [throughputSaturation]

theorem pnlDimension_sound (pnlStats : Option PnlStats) : (pnlDimension pnlStats).Sound := by
  cases pnlStats with
  | none => exact Dimension.sound_missing _
  | some stats =>
      rw [pnlDimension]
      split_ifs
      · exact Dimension.sound_missing _
      · exact ⟨le_min (le_max_right _ _) zero_le_one, min_le_right _ _⟩

theorem p95_nonneg {values : List ℚ} (nonneg : ∀ value ∈ values, 0 ≤ value) : 0 ≤ p95 values := by
  rw [p95]
  generalize (min _ _ : ℕ) = place
  cases found : (values.insertionSort (· ≤ ·))[place]? with
  | none => simp [List.getD_eq_getElem?_getD, found]
  | some value =>
      rw [List.getD_eq_getElem?_getD, found]
      have member :=
        (List.perm_insertionSort (· ≤ ·) values).mem_iff.mp (List.mem_of_getElem? found)
      exact nonneg value member

theorem latencyDimension_sound {runs : List AgentRun}
    (nonneg : ∀ run ∈ runs, ∀ latency ∈ run.latencyMs, 0 ≤ latency) :
    (latencyDimension runs).Sound := by
  have slow : 0 ≤ p95 (runs.filterMap AgentRun.latencyMs) := by
    refine p95_nonneg fun latency listed => ?_
    obtain ⟨run, member, measured⟩ := List.mem_filterMap.mp listed
    exact nonneg run member latency measured
  rw [latencyDimension]
  split_ifs
  · exact Dimension.sound_missing _
  · have share : 0 ≤ p95 (runs.filterMap AgentRun.latencyMs) / circuitBreakerMaxLatencyMs :=
      div_nonneg slow (by norm_num [circuitBreakerMaxLatencyMs])
    have least : 0 ≤ min (p95 (runs.filterMap AgentRun.latencyMs) / circuitBreakerMaxLatencyMs) 1 :=
      le_min share zero_le_one
    have most := min_le_right
      (p95 (runs.filterMap AgentRun.latencyMs) / circuitBreakerMaxLatencyMs) 1
    exact ⟨sub_nonneg.mpr most, sub_le_self 1 least⟩

theorem dimensions_eq (agentName : String) (heartbeat : Heartbeat) (runs : List AgentRun)
    (pnlStats : Option PnlStats) :
    dimensions agentName heartbeat runs pnlStats =
      [livenessDimension heartbeat,
        successDimension (runTallies runs).1 ((runTallies runs).1 + (runTallies runs).2),
        throughputDimension heartbeat, latencyDimension runs] ++
      if agentName ∈ pnlGradedAgents then [pnlDimension pnlStats] else [] := rfl

theorem dimensions_sound (evidence : Evidence) (agentName : String) :
    ∀ dim ∈ evidence.dimensions agentName, dim.Sound := by
  intro dim member
  rw [Evidence.dimensions, dimensions_eq, List.mem_append] at member
  rcases member with shared | trading
  · simp only [List.mem_cons, List.not_mem_nil, or_false] at shared
    rcases shared with same | same | same | same
    · exact same ▸ livenessDimension_sound _
    · exact same ▸ successDimension_sound _ _
    · exact same ▸ throughputDimension_sound evidence.events_nonneg
    · exact same ▸ latencyDimension_sound evidence.latencies_nonneg
  · split_ifs at trading
    · rw [List.mem_singleton.mp trading]
      exact pnlDimension_sound _
    · cases trading

/-! ## The blend -/

variable {dims others : List Dimension}

theorem DimensionKey.weight_pos (key : DimensionKey) : 0 < key.weight := by
  cases key <;> norm_num [DimensionKey.weight]

/-- What a dimension adds to the score. -/
def Dimension.share (dim : Dimension) : ℚ := if dim.available then dim.value * dim.key.weight else 0

/-- The sum of the shares. -/
def shareOf (dims : List Dimension) : ℚ := (dims.map Dimension.share).sum

theorem sum_availableOf (dims : List Dimension) :
    ((availableOf dims).map fun dim => dim.value * dim.key.weight).sum = shareOf dims := by
  induction dims with
  | nil => rfl
  | cons dim dims induction =>
      rw [availableOf] at induction ⊢
      rw [shareOf, List.map_cons, List.sum_cons, ← shareOf, List.filter_cons, Dimension.share]
      split_ifs
      · rw [List.map_cons, List.sum_cons, induction]
      · rw [induction, zero_add]

theorem weightOf_nonneg (dims : List Dimension) : 0 ≤ weightOf dims :=
  List.sum_nonneg fun weight listed => by
    obtain ⟨dim, -, rfl⟩ := List.mem_map.mp listed
    exact dim.key.weight_pos.le

theorem weightOf_pos (nonempty : dims ≠ []) : 0 < weightOf dims := by
  cases dims with
  | nil => exact absurd rfl nonempty
  | cons dim dims =>
      rw [weightOf, List.map_cons, List.sum_cons, ← weightOf]
      exact add_pos_of_pos_of_nonneg dim.key.weight_pos (weightOf_nonneg dims)

theorem share_nonneg {dim : Dimension} (sound : dim.Sound) : 0 ≤ dim.share := by
  rw [Dimension.share]
  split_ifs
  · exact mul_nonneg sound.1 dim.key.weight_pos.le
  · exact le_rfl

theorem shareOf_nonneg (sound : ∀ dim ∈ dims, dim.Sound) : 0 ≤ shareOf dims :=
  List.sum_nonneg fun share listed => by
    obtain ⟨dim, member, rfl⟩ := List.mem_map.mp listed
    exact share_nonneg (sound dim member)

theorem shareOf_le (sound : ∀ dim ∈ dims, dim.Sound) :
    shareOf dims ≤ weightOf (availableOf dims) := by
  rw [← sum_availableOf, weightOf]
  refine List.sum_le_sum fun dim member => ?_
  exact mul_le_of_le_one_left dim.key.weight_pos.le (sound dim (List.mem_filter.mp member).1).2

theorem weightOf_availableOf_le (dims : List Dimension) :
    weightOf (availableOf dims) ≤ weightOf dims := by
  induction dims with
  | nil => exact le_rfl
  | cons dim dims induction =>
      rw [availableOf] at induction ⊢
      rw [List.filter_cons]
      split_ifs
      · rw [weightOf, weightOf, List.map_cons, List.map_cons, List.sum_cons, List.sum_cons]
        exact add_le_add_right induction _
      · rw [weightOf, weightOf, List.map_cons, List.sum_cons]
        exact induction.trans (le_add_of_nonneg_left dim.key.weight_pos.le)

theorem availableOf_ne_nil (work : workAvailable dims = true) : availableOf dims ≠ [] := by
  intro nothing
  rw [workAvailable, nothing] at work
  cases work

theorem coverage_eq (nonempty : dims ≠ []) :
    coverage dims = weightOf (availableOf dims) / weightOf dims :=
  if_pos (weightOf_pos nonempty).ne'

/-- The blend is what the shares are of the whole weight, whatever has data. -/
theorem blend_eq (sound : ∀ dim ∈ dims, dim.Sound) (work : workAvailable dims = true) :
    blend dims = shareOf dims / weightOf dims := by
  have available := availableOf_ne_nil work
  have nonempty : dims ≠ [] := fun nothing => available (by rw [nothing]; rfl)
  have nonneg : 0 ≤ shareOf dims / weightOf dims :=
    div_nonneg (shareOf_nonneg sound) (weightOf_nonneg dims)
  have whole : shareOf dims / weightOf dims ≤ 1 :=
    div_le_one_of_le₀ ((shareOf_le sound).trans (weightOf_availableOf_le dims))
      (weightOf_nonneg dims)
  have cancelled : shareOf dims / weightOf (availableOf dims) *
      (weightOf (availableOf dims) / weightOf dims) = shareOf dims / weightOf dims :=
    div_mul_div_cancel₀ (weightOf_pos available).ne'
  rw [blend, sum_availableOf, coverage_eq nonempty, cancelled, max_eq_left nonneg,
    min_eq_left whole]

theorem blend_le_coverage (sound : ∀ dim ∈ dims, dim.Sound) (work : workAvailable dims = true) :
    0 ≤ blend dims ∧ blend dims ≤ coverage dims := by
  have available := availableOf_ne_nil work
  have nonempty : dims ≠ [] := fun nothing => available (by rw [nothing]; rfl)
  rw [blend_eq sound work, coverage_eq nonempty]
  exact ⟨div_nonneg (shareOf_nonneg sound) (weightOf_nonneg dims),
    div_le_div_of_nonneg_right (shareOf_le sound) (weightOf_nonneg dims)⟩

theorem share_mono {dim other : Dimension} (sound : other.Sound) (rises : dim.Rises other) :
    dim.share ≤ other.share := by
  rw [Dimension.share]
  split_ifs with available
  · obtain ⟨kept, above⟩ := rises.value available
    rw [Dimension.share, if_pos kept, ← rises.key]
    exact mul_le_mul_of_nonneg_right above dim.key.weight_pos.le
  · exact share_nonneg sound

/-- No dimension loses its data or value, so the sum of the shares does not fall. -/
theorem shareOf_mono (rises : dims.Forall₂ Dimension.Rises others)
    (sound : ∀ dim ∈ others, dim.Sound) :
    shareOf dims ≤ shareOf others ∧ weightOf dims = weightOf others := by
  induction rises with
  | nil => exact ⟨le_rfl, rfl⟩
  | @cons dim other dims others first rest induction =>
      obtain ⟨shares, weights⟩ :=
        induction fun dim member => sound dim (List.mem_cons_of_mem _ member)
      have share := share_mono (sound other List.mem_cons_self) first
      simp only [shareOf, weightOf, List.map_cons, List.sum_cons] at shares weights ⊢
      rw [first.key]
      exact ⟨add_le_add share shares, congrArg _ weights⟩

theorem blend_mono (rises : dims.Forall₂ Dimension.Rises others)
    (sound : ∀ dim ∈ dims, dim.Sound) (otherSound : ∀ dim ∈ others, dim.Sound)
    (work : workAvailable dims = true) (otherWork : workAvailable others = true) :
    blend dims ≤ blend others := by
  obtain ⟨shares, weights⟩ := shareOf_mono rises otherSound
  rw [blend_eq sound work, blend_eq otherSound otherWork, weights]
  exact div_le_div_of_nonneg_right shares (weightOf_nonneg others)

/-! ## The grade -/

theorem score_eq_some {evidence : Evidence} {agentName : String} {score : ℚ} :
    (evidence.grade agentName).score = some score ↔
      workAvailable (evidence.dimensions agentName) = true ∧
        roundHalfEven 4 (blend (evidence.dimensions agentName)) = score := by
  rw [Evidence.grade, gradeAgent, Evidence.dimensions]
  dsimp only
  split_ifs with work
  · simp [work]
  · simp [work]

theorem workAvailable_iff : workAvailable dims = true ↔
    ∃ dim ∈ dims, dim.available = true ∧ dim.key ≠ .liveness := by
  simp [workAvailable, availableOf]

theorem tier_promoted {evidence : Evidence} {agentName : String}
    (top : (evidence.grade agentName).tier = .promoted) :
    (evidence.grade agentName).grade.any (· ∈ promotionGrades) = true := by
  rw [Evidence.grade, gradeAgent] at top ⊢
  dsimp only at top ⊢
  generalize Option.map Learning.GradeTally.scoreToGrade _ = grade at top ⊢
  cases grade with
  | none => cases top
  | some letter => cases letter with
    | aPlus => rfl
    | a => rfl
    | b => cases top
    | c => cases top
    | d => cases top
    | f => cases top

theorem finalizePromotion_gated {evidence : Evidence} {agentName : String}
    (history : Option (List Snapshot)) (trading : agentName ∈ pnlGradedAgents)
    (unproven : pnlClearsPromotionGate evidence.pnlStats = false) :
    (finalizePromotion history (evidence.grade agentName) evidence.pnlStats).promoted = false ∧
    (finalizePromotion history (evidence.grade agentName) evidence.pnlStats).tier ≠ .promoted := by
  have named : (evidence.grade agentName).name = agentName := rfl
  have base := @tier_promoted evidence agentName
  simp only [finalizePromotion, named, trading, unproven, not_true_eq_false, decide_false,
    Bool.or_false, Bool.and_false, Bool.false_eq_true, if_false, true_and]
  split_ifs with best
  · exact Tier.noConfusion
  · exact fun top => best (base top)

/-- Snapshots of promotion grades that follow each other are an interval apart. -/
def Spaced (history : List Snapshot) : Prop :=
  history.IsChain fun newer older => newer.isPromotion = true → older.isPromotion = true →
    agentGradeSnapshotIntervalSeconds ≤ newer.timestamp - older.timestamp

/-- The newest snapshots, as many as a promotion needs, span their intervals. -/
def Spans (history : List Snapshot) : Prop :=
  ∃ newest oldest, history[0]? = some newest ∧ history[agentPromotionStreak - 1]? = some oldest ∧
    (agentPromotionStreak - 1) * agentGradeSnapshotIntervalSeconds ≤
      newest.timestamp - oldest.timestamp

/-- Whoever is promoted has sustained the grades. -/
def PromotesSustained (histories : GradeHistories) : Prop :=
  ∀ agent pnlStats,
    (finalizePromotion (some (listAgentGrades histories agent.name)) agent
      pnlStats).promoted = true →
    Spans (listAgentGrades histories agent.name)

/-- No other promotion grade is found less than an interval after the newest snapshot. -/
def SteadyTurn (history : List Snapshot) (agentName : String) (turn : Turn) : Prop :=
  ∀ latest ∈ history.head?, ∀ grade ∈
    (gradeAgent agentName turn.heartbeat turn.runs turn.pnlStats).grade,
    latest.isPromotion = true → grade ∈ promotionGrades → latest.grade ≠ grade →
      agentGradeSnapshotIntervalSeconds ≤ turn.stamped - latest.timestamp

def SteadyRun : GradeHistories → List (String → Turn) → Prop
  | _, [] => True
  | histories, tick :: ticks =>
      (∀ agentName ∈ allAgentNames,
        SteadyTurn (listAgentGrades histories agentName) agentName (tick agentName)) ∧
      SteadyRun (recordGradeSnapshots histories tick).1 ticks

def recordTicks (histories : GradeHistories) (ticks : List (String → Turn)) : GradeHistories :=
  ticks.foldl (fun histories tick => (recordGradeSnapshots histories tick).1) histories

/-! ### One turn -/

variable {histories : GradeHistories} {history : List Snapshot} {agentName : String}

theorem snapshotFor_eq_some {turn : Turn} {snapshot : Snapshot}
    (due : snapshotFor history agentName turn = some snapshot) :
    (gradeAgent agentName turn.heartbeat turn.runs turn.pnlStats).grade = some snapshot.grade ∧
      snapshot.timestamp = turn.stamped ∧
      shouldRecord history snapshot.grade turn.checked = true := by
  delta snapshotFor at due
  generalize gradeAgent agentName turn.heartbeat turn.runs turn.pnlStats = performance at due ⊢
  cases graded : performance.grade with
  | none =>
      simp only [graded] at due
      cases due
  | some grade =>
      simp only [graded] at due
      split_ifs at due with recorded
      cases due
      exact ⟨rfl, rfl, recorded⟩

/-- A steady turn keeps the snapshots apart. -/
theorem spaced_cons {turn : Turn} {snapshot : Snapshot} (spaced : Spaced history)
    (steady : SteadyTurn history agentName turn)
    (due : snapshotFor history agentName turn = some snapshot) : Spaced (snapshot :: history) := by
  obtain ⟨graded, stamped, recorded⟩ := snapshotFor_eq_some due
  cases history with
  | nil => exact List.isChain_singleton _
  | cons latest history =>
      refine List.isChain_cons_cons.mpr ⟨fun best latestBest => ?_, spaced⟩
      rw [stamped]
      by_cases same : latest.grade = snapshot.grade
      · -- the throttle lets the same letter through after an interval only
        simp only [shouldRecord, same, ne_eq, not_true_eq_false, decide_false, Bool.false_or,
          decide_eq_true_eq] at recorded
        exact recorded.trans (sub_le_sub_right turn.ordered _)
      · exact steady latest rfl snapshot.grade graded latestBest (of_decide_eq_true best) same

theorem spaced_take (spaced : Spaced history) (count : ℕ) : Spaced (history.take count) :=
  List.IsChain.take spaced count

def turned (history : List Snapshot) (agentName : String) (turn : Turn) : List Snapshot :=
  (snapshotFor (history.take agentGradeHistoryMax) agentName turn).elim history
    fun snapshot => (snapshot :: history).take agentGradeHistoryMax

theorem spaced_turned {turn : Turn} (short : history.length ≤ agentGradeHistoryMax)
    (spaced : Spaced history) (steady : SteadyTurn history agentName turn) :
    Spaced (turned history agentName turn) ∧
      (turned history agentName turn).length ≤ agentGradeHistoryMax := by
  rw [turned, List.take_of_length_le short]
  cases due : snapshotFor history agentName turn with
  | none => exact ⟨spaced, short⟩
  | some snapshot =>
      exact ⟨spaced_take (spaced_cons spaced steady due) _, List.length_take_le _ _⟩

/-! ### One tick -/

theorem recordSnapshot_same (tick : String → Turn) (state : GradeHistories × ℕ)
    (agentName : String) :
    (recordSnapshot tick state agentName).1 agentName =
      turned (state.1 agentName) agentName (tick agentName) := by
  rw [recordSnapshot, turned, listAgentGrades]
  cases snapshotFor ((state.1 agentName).take agentGradeHistoryMax) agentName (tick agentName) with
  | none => rfl
  | some snapshot => exact Function.update_self _ _ _

theorem recordSnapshot_other (tick : String → Turn) (state : GradeHistories × ℕ)
    {agentName other : String} (different : other ≠ agentName) :
    (recordSnapshot tick state agentName).1 other = state.1 other := by
  rw [recordSnapshot]
  cases snapshotFor (listAgentGrades state.1 agentName) agentName (tick agentName) with
  | none => rfl
  | some snapshot => exact Function.update_of_ne different _ _

theorem foldl_recordSnapshot (tick : String → Turn) {names : List String} (distinct : names.Nodup)
    (state : GradeHistories × ℕ) (agentName : String) :
    (names.foldl (recordSnapshot tick) state).1 agentName =
      if agentName ∈ names then turned (state.1 agentName) agentName (tick agentName)
      else state.1 agentName := by
  induction names generalizing state with
  | nil => rfl
  | cons name names induction =>
      obtain ⟨absent, distinct⟩ := List.nodup_cons.mp distinct
      rw [List.foldl_cons, induction distinct]
      by_cases same : agentName = name
      · rw [same, if_neg absent, if_pos List.mem_cons_self, recordSnapshot_same]
      · rw [recordSnapshot_other tick state same]
        simp only [List.mem_cons, same, false_or]

def ShortSpaced (histories : GradeHistories) : Prop :=
  ∀ agentName, Spaced (histories agentName) ∧
    (histories agentName).length ≤ agentGradeHistoryMax

theorem shortSpaced_recordGradeSnapshots {tick : String → Turn} (kept : ShortSpaced histories)
    (steady : ∀ agentName ∈ allAgentNames,
      SteadyTurn (listAgentGrades histories agentName) agentName (tick agentName)) :
    ShortSpaced (recordGradeSnapshots histories tick).1 := by
  intro agentName
  obtain ⟨spaced, short⟩ := kept agentName
  rw [recordGradeSnapshots, foldl_recordSnapshot tick (by decide)]
  split_ifs with listed
  · have turn := steady agentName listed
    rw [listAgentGrades, List.take_of_length_le short] at turn
    exact spaced_turned short spaced turn
  · exact ⟨spaced, short⟩

/-! ### Runs -/

theorem shortSpaced_recordTicks {ticks : List (String → Turn)} (kept : ShortSpaced histories)
    (steady : SteadyRun histories ticks) : ShortSpaced (recordTicks histories ticks) := by
  induction ticks generalizing histories with
  | nil => exact kept
  | cons tick ticks induction =>
      obtain ⟨first, rest⟩ := steady
      rw [recordTicks, List.foldl_cons, ← recordTicks]
      exact induction (shortSpaced_recordGradeSnapshots kept first) rest

theorem isPromotion_of_lt_streak {place : ℕ} (within : place < streakFromHistory history) :
    ∃ snapshot, history[place]? = some snapshot ∧ snapshot.isPromotion = true := by
  rw [streakFromHistory] at within
  have listed := (List.takeWhile_prefix Snapshot.isPromotion (l := history)).getElem within
  have long := within.trans_le (List.takeWhile_prefix Snapshot.isPromotion).length_le
  refine ⟨_, List.getElem?_eq_getElem long, ?_⟩
  rw [← listed]
  exact List.all_eq_true.mp List.all_takeWhile _ (List.getElem_mem within)

theorem streak_spans (spaced : Spaced history) {place : ℕ}
    (within : place < streakFromHistory history) :
    ∃ newest oldest, history[0]? = some newest ∧ history[place]? = some oldest ∧
      place * agentGradeSnapshotIntervalSeconds ≤ newest.timestamp - oldest.timestamp := by
  induction place with
  | zero =>
      obtain ⟨newest, found, -⟩ := isPromotion_of_lt_streak within
      exact ⟨newest, newest, found, found, by simp⟩
  | succ place induction =>
      have before := Nat.lt_of_succ_lt within
      obtain ⟨newest, older, first, found, span⟩ := induction before
      obtain ⟨oldest, last, best⟩ := isPromotion_of_lt_streak within
      obtain ⟨same, again, olderBest⟩ := isPromotion_of_lt_streak before
      obtain rfl : older = same := Option.some.inj (found.symm.trans again)
      obtain ⟨long, reached⟩ := List.getElem?_eq_some_iff.mp last
      obtain ⟨shorter, reachedToo⟩ := List.getElem?_eq_some_iff.mp found
      have apart := List.IsChain.getElem spaced place long
      rw [reached, reachedToo] at apart
      have gap := apart olderBest best
      refine ⟨newest, oldest, first, last, ?_⟩
      push_cast
      linarith

/-- A steady run from empty histories promotes only who has sustained the best grades. -/
theorem promotesSustained_of_steadyRun {ticks : List (String → Turn)}
    (steady : SteadyRun (fun _ => []) ticks) :
    PromotesSustained (recordTicks (fun _ => []) ticks) := by
  have empty : ShortSpaced fun _ => [] := fun agentName => ⟨List.isChain_nil, Nat.zero_le _⟩
  have kept := shortSpaced_recordTicks empty steady
  intro agent pnlStats promoted
  obtain ⟨spaced, short⟩ := kept agent.name
  rw [listAgentGrades, List.take_of_length_le short] at promoted ⊢
  have streak : agentPromotionStreak ≤
      streakFromHistory (recordTicks (fun _ => []) ticks agent.name) := by
    simp only [finalizePromotion, Bool.and_eq_true, decide_eq_true_eq] at promoted
    exact promoted.1.2
  obtain ⟨newest, oldest, first, last, span⟩ :=
    streak_spans spaced (show agentPromotionStreak - 1 < _ from lt_of_lt_of_le (by decide) streak)
  refine ⟨newest, oldest, first, last, ?_⟩
  rw [agentPromotionStreak] at span ⊢
  exact_mod_cast span

/-! ### The grade agent -/

instance (history : List Snapshot) (agentName : String) (turn : Turn) :
    Decidable (SteadyTurn history agentName turn) :=
  inferInstanceAs (Decidable (∀ latest ∈ history.head?, ∀ grade ∈
    (gradeAgent agentName turn.heartbeat turn.runs turn.pnlStats).grade,
    latest.isPromotion = true → grade ∈ promotionGrades → latest.grade ≠ grade →
      agentGradeSnapshotIntervalSeconds ≤ turn.stamped - latest.timestamp))

instance decidableSteadyRun : ∀ histories ticks, Decidable (SteadyRun histories ticks)
  | _, [] => isTrue trivial
  | _, _ :: ticks => @instDecidableAnd _ _ inferInstance (decidableSteadyRun _ ticks)

/-- A tick in which the grade agent alone has run, with a latency. -/
def graderTick (latency now : ℚ) (agentName : String) : Turn :=
  if agentName = "GRADE_AGENT" then
    { heartbeat := { status := some "ACTIVE", eventCount := some 100 }
      runs := [{ status := some "completed", latencyMs := some latency }]
      checked := now
      stamped := now
      ordered := le_rfl }
  else
    { checked := now
      stamped := now
      ordered := le_rfl }

/-- The grade agent as `_grade_agent` finds it in a tick. -/
def graderGrade (tick : String → Turn) : AgentGrade :=
  gradeAgent "GRADE_AGENT" (tick "GRADE_AGENT").heartbeat (tick "GRADE_AGENT").runs none

theorem grader_sustained :
    Spans (listAgentGrades (recordTicks (fun _ => [])
      [graderTick 0 0, graderTick 0 300, graderTick 0 600, graderTick 0 900, graderTick 0 1200])
      "GRADE_AGENT") :=
  promotesSustained_of_steadyRun (by decide +kernel) (graderGrade (graderTick 0 1200)) none
    (by decide +kernel)

/-- Five changes between the two best letters in four minutes promote the grade agent. -/
theorem flapping_promotes :
    ¬ ∀ ticks, PromotesSustained (recordTicks (fun _ => []) ticks) := by
  intro sustained
  have promoted : (finalizePromotion (some (listAgentGrades (recordTicks (fun _ => [])
      [graderTick 0 0, graderTick 5000 60, graderTick 0 120, graderTick 5000 180,
        graderTick 0 240]) "GRADE_AGENT")) (graderGrade (graderTick 0 240)) none).promoted =
      true := by decide +kernel
  obtain ⟨newest, oldest, first, last, span⟩ :=
    sustained _ (graderGrade (graderTick 0 240)) none promoted
  have stamps : (listAgentGrades (recordTicks (fun _ => [])
      [graderTick 0 0, graderTick 5000 60, graderTick 0 120, graderTick 5000 180,
        graderTick 0 240]) "GRADE_AGENT").map Snapshot.timestamp = [240, 180, 120, 60, 0] := by
    decide +kernel
  have started := congrArg (Option.map Snapshot.timestamp) first
  have ended := congrArg (Option.map Snapshot.timestamp) last
  rw [← List.getElem?_map] at started ended
  have top : (240 : ℚ) = newest.timestamp :=
    Option.some.inj ((congrArg (·[0]?) stamps).symm.trans started)
  have bottom : (0 : ℚ) = oldest.timestamp :=
    Option.some.inj ((congrArg (·[agentPromotionStreak - 1]?) stamps).symm.trans ended)
  rw [← top, ← bottom, agentPromotionStreak, agentGradeSnapshotIntervalSeconds] at span
  norm_num at span

end TradingControl.Dashboard
