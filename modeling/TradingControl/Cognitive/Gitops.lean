import TradingControl.Cognitive.Backtest
import TradingControl.Cognitive.Proposal

/-!
# Proposals as configuration changes

A weight or risk proposal is applied to the dictionary of a configuration, which is validated and
read back.  An approved proposal becomes the plan of a pull request.
-/

namespace TradingControl.Cognitive

open Python

/-! ## Application -/

/-- `clamp_weight(float(value))`: `min` and `max` keep their first argument where the other one does
not compare. -/
def clampedWeight (runtime : Runtime) : Value → Except Raised ℚ
  | .nonFinite .negativeInfinity => .ok weightBounds.low
  | .nonFinite _ => .ok weightBounds.high
  | value => (runtime.toFloat value).map clampWeight

/-- The dictionary of a configuration with a changed entry; `none` where the proposal does not map
onto it. -/
def changedDict (runtime : Runtime) (config : CognitiveConfig) (proposal : Proposal) :
    Except Raised (Option Payload) :=
  let key := lastSegment proposal.target
  if proposal.proposalType = "weight_change" then
    if key ∉ weightKeys then .ok none
    else (clampedWeight runtime proposal.newValue).map fun value =>
      some (Dict.set "weights" (.dict (Dict.set key (.float value) config.weightsDict))
        config.toDict)
  else if proposal.proposalType = "risk_change" then
    if key ∉ Dict.keys config.riskDict then .ok none
    else (runtime.floatValue proposal.newValue).map fun value =>
      some (Dict.set "risk" (.dict (Dict.set key value config.riskDict)) config.toDict)
  else .ok none

/-- `apply_proposal_to_config`. -/
def applyProposalToConfig (runtime : Runtime) (config : CognitiveConfig) (proposal : Proposal) :
    Except Raised (Option CognitiveConfig) := do
  match ← changedDict runtime config proposal with
  | none => return none
  | some changed =>
      let data := Dict.set "version" (.int (config.version + 1)) changed
      if (← validateConfigDict runtime (.dict data)).isEmpty then
        return some (← CognitiveConfig.fromDict runtime data)
      else return none

/-! ## Text -/

/-- `json.loads(raw_text) if raw_text.strip() else {}`. -/
def currentConfig (runtime : Runtime) (interpreter : Json.Interpreter) (rawText : String) :
    Except Raised Value :=
  if strip rawText = "" then .ok (.dict []) else Json.loads runtime interpreter.depth rawText

def configText (runtime : Runtime) (interpreter : Json.Interpreter) (config : CognitiveConfig) :
    Except Raised String :=
  (Json.dumps runtime interpreter.depth ⟨some 2, true⟩ (.dict config.toDict)).map (· ++ "\n")

/-- Outcome of `apply_to_config_text`: the new text, or the error. -/
def applyToConfigText (runtime : Runtime) (interpreter : Json.Interpreter) (rawText : String)
    (proposal : Proposal) : Except Raised (Except String String) :=
  match currentConfig runtime interpreter rawText with
  | .error .jsonDecodeError => .ok (.error ("invalid JSON: " ++ interpreter.errorText rawText))
  | .error raised => .error raised
  | .ok current => do
      if !(← validateConfigDict runtime current).isEmpty then
        return .error "current config is not valid"
      else
        match current with
        | .dict data =>
            match ← applyProposalToConfig runtime (← CognitiveConfig.fromDict runtime data)
                proposal with
            | none => return .error "proposal does not apply to the config file or is out of bounds"
            | some updated =>
                let newText ← configText runtime interpreter updated
                return if newText = rawText then .error "proposal produces no change"
                  else .ok newText
        -- a value that is no object does not validate
        | _ => return .error "current config is not valid"

/-! ## Pull requests -/

/-- `re.sub(r"[^a-z0-9]+", "-", text)` on characters, with whether the last one was replaced. -/
def dashed : Bool → List Char → List Char
  | _, [] => []
  | replaced, letter :: rest =>
      if letter.isLower || letter.isDigit then letter :: dashed false rest
      else if replaced then dashed true rest
      else '-' :: dashed true rest

/-- `slugify`. -/
def slugify (text : String) : String :=
  let slug := dashed false (lower text).toList
  String.ofList ((slug.dropWhile (· = '-')).reverse.dropWhile (· = '-')).reverse

/-- `branch_name`. -/
def branchName (runtime : Runtime) (proposal : Proposal) : String :=
  "cognitive-evolution/" ++ slugify proposal.target ++ "-" ++
    slugify (runtime.str proposal.newValue)

/-- A changed leaf of two configurations. -/
structure ConfigChange where
  path : String
  old : Value
  new : Value

def leafChange {α : Type} [DecidableEq α] (path : String) (old new : Option α)
    (value : α → Value) : List ConfigChange :=
  if old = new then []
  else [⟨path, (old.map value).getD .none, (new.map value).getD .none⟩]

/-- `config_diff` of two configurations, leaf by leaf in the order of the sorted keys. -/
def configDiff (before after : CognitiveConfig) : List ConfigChange :=
  let leaf (path : String) (field : CognitiveConfig → ℚ) :=
    leafChange path (some (field before)) (some (field after)) .float
  let weightNames := ((Dict.keys before.weights ++ Dict.keys after.weights).dedup).mergeSort
    (fun first second => decide (first ≤ second))
  leaf "buy_threshold" (·.buyThreshold) ++
  leaf "risk.max_daily_loss_pct" (·.maxDailyLossPct) ++
  leaf "risk.max_exposure_pct" (·.maxExposurePct) ++
  leaf "risk.max_position_size_pct" (·.maxPositionSizePct) ++
  leaf "sell_threshold" (·.sellThreshold) ++
  leafChange "version" (some before.version) (some after.version) .int ++
  weightNames.flatMap fun name =>
    leafChange ("weights." ++ name) (before.weights.lookup name) (after.weights.lookup name) .float

structure PullRequestPlan where
  branch : String
  baseRef : String
  title : String
  body : String
  diff : List ConfigChange
  configBefore : Payload
  configAfter : Payload

/-- `as_dict`. -/
def PullRequestPlan.asDict (plan : PullRequestPlan) : Payload :=
  [("type", .str "pr_request"), ("branch", .str plan.branch), ("base_ref", .str plan.baseRef),
    ("title", .str plan.title), ("body", .str plan.body),
    ("diff", .list (plan.diff.map fun change =>
      .dict [("path", .str change.path), ("old", change.old), ("new", change.new)])),
    ("config_before", .dict plan.configBefore), ("config_after", .dict plan.configAfter),
    ("auto_merge", .bool false)]

/-- `"\n".join`. -/
def joinLines (lines : List String) : String := String.intercalate "\n" lines

/-- `_metrics_block`. -/
def metricsBlock (runtime : Runtime) (label : String) (delta : BacktestDelta) : String :=
  let row (name : String) (field : ConfigBacktestMetrics → ℚ) (change : ℚ) : String :=
    "| " ++ name ++ " | " ++ runtime.text (field delta.baseline) ++ " | " ++
      runtime.text (field delta.candidate) ++ " | " ++ runtime.signed change ++ " |"
  joinLines
    ["**" ++ label ++ "**", "", "| metric | baseline | candidate | delta |",
      "| --- | --- | --- | --- |", row "return %" (·.totalReturnPct) delta.pnlDelta,
      row "sharpe" (·.sharpe) delta.sharpeDelta,
      row "max drawdown %" (·.maxDrawdownPct) delta.drawdownDelta,
      row "false-positive rate" (·.falsePositiveRate) delta.falsePositiveRateDelta, ""]

/-- `build_pull_request`. -/
def buildPullRequest (runtime : Runtime) (proposal : Proposal) (verdict : ChallengerVerdict)
    (inSample outSample : BacktestDelta) (configBefore configAfter : CognitiveConfig)
    (baseRef : String) : PullRequestPlan :=
  let diff := configDiff configBefore configAfter
  let diffLines := joinLines (diff.map fun change =>
    "- `" ++ change.path ++ "`: " ++ runtime.str change.old ++ " -> " ++ runtime.str change.new)
  { branch := branchName runtime proposal
    baseRef := baseRef
    title := "cognitive: " ++ proposal.proposalType ++ " " ++ proposal.target ++ " (" ++
      runtime.str proposal.oldValue ++ " -> " ++ runtime.str proposal.newValue ++ ")"
    body := joinLines
      (["## Proposal", "- **Type:** " ++ proposal.proposalType,
        "- **Target:** `" ++ proposal.target ++ "`", "- **Reason:** " ++ proposal.reason,
        "- **Expected impact:** " ++ proposal.expectedImpact, "", "## Config diff",
        if diffLines = "" then "_(no leaf changes)_" else diffLines, "",
        "## Challenger verdict",
        "- **Decision:** " ++ (if verdict.approved then "APPROVE" else "REJECT"),
        "- **Risk score:** " ++ runtime.text verdict.riskScore] ++
      verdict.reasons.map ("- " ++ ·) ++
      ["", "## Backtest evidence", metricsBlock runtime "In-sample" inSample,
        metricsBlock runtime "Out-of-sample" outSample,
        "> NO auto-merge. Behaviour changes only after this PR is reviewed and merged."])
    diff := diff
    configBefore := configBefore.toDict
    configAfter := configAfter.toDict }

end TradingControl.Cognitive
