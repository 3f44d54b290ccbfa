import TradingControl.Python.JsonRoundTrip
import TradingControl.Python.Reference

/-!
# Tool registry

Calls are folded into the telemetry of their tools, a snapshot of it is saved as JSON and merged
back onto a seeded catalog.  The fields of a tool are converted one after the other in one `try`
block, so the first one that is malformed decides what becomes of the later ones.
-/

namespace TradingControl.Agents

open Python

/-! ## Telemetry -/

/-- The telemetry of a tool and its enabled state. -/
structure ToolMetadata where
  enabled : Bool := true
  alphaScore : Number := .finite 0
  latencyMs : Number := .finite 0
  failureRate : Number := .finite 0
  callCount : ℤ := 0
  successCount : ℤ := 0
deriving DecidableEq

/-- `_EMA_ALPHA`. -/
def emaAlpha : ℚ := 1 / 5

/-- `_ema`. -/
def ema (prev sample : Number) (count : ℤ) : Number :=
  if count ≤ 0 then sample
  else Number.add (Number.mul (.finite (1 - emaAlpha)) prev) (Number.mul (.finite emaAlpha) sample)

/-- The arguments of a `record_call`. -/
structure ToolCall where
  name : String
  latencyMs : Number
  success : Bool
  realizedPnl : Option Number

def ToolMetadata.recorded (tool : ToolMetadata) (call : ToolCall) : ToolMetadata where
  enabled := tool.enabled
  alphaScore :=
    match call.realizedPnl with
    | none => tool.alphaScore
    | some realizedPnl => ema tool.alphaScore realizedPnl tool.callCount
  latencyMs := ema tool.latencyMs call.latencyMs tool.callCount
  failureRate := ema tool.failureRate (.finite (if call.success then 0 else 1)) tool.callCount
  callCount := tool.callCount + 1
  successCount := if call.success then tool.successCount + 1 else tool.successCount

/-- The tools of a registry by their names. -/
abbrev Tools := Dict String ToolMetadata

/-- `record_call`: the tool it returns and the tools after it. -/
def recordCall (tools : Tools) (call : ToolCall) : Option ToolMetadata × Tools :=
  let after := Dict.modify call.name (fun tool => tool.recorded call) tools
  (after.lookup call.name, after)

def recordAll (tools : Tools) (calls : List ToolCall) : Tools :=
  calls.foldl (fun tools call => (recordCall tools call).2) tools

/-! ## Fields -/

inductive TelemetryField where
  | callCount
  | successCount
  | alphaScore
  | latencyMs
  | failureRate
  | enabled
deriving DecidableEq

namespace TelemetryField

def key : TelemetryField → String
  | .callCount => "call_count"
  | .successCount => "success_count"
  | .alphaScore => "alpha_score"
  | .latencyMs => "latency_ms"
  | .failureRate => "failure_rate"
  | .enabled => "enabled"

def Content : TelemetryField → Type
  | .callCount | .successCount => ℤ
  | .alphaScore | .latencyMs | .failureRate => Number
  | .enabled => Bool

def get : (field : TelemetryField) → ToolMetadata → field.Content
  | .callCount, tool => tool.callCount
  | .successCount, tool => tool.successCount
  | .alphaScore, tool => tool.alphaScore
  | .latencyMs, tool => tool.latencyMs
  | .failureRate, tool => tool.failureRate
  | .enabled, tool => tool.enabled

def put : (field : TelemetryField) → field.Content → ToolMetadata → ToolMetadata
  | .callCount, content, tool => { tool with callCount := content }
  | .successCount, content, tool => { tool with successCount := content }
  | .alphaScore, content, tool => { tool with alphaScore := content }
  | .latencyMs, content, tool => { tool with latencyMs := content }
  | .failureRate, content, tool => { tool with failureRate := content }
  | .enabled, content, tool => { tool with enabled := content }

def toValue : (field : TelemetryField) → field.Content → Value
  | .callCount, content | .successCount, content => .int content
  | .alphaScore, content | .latencyMs, content | .failureRate, content => Number.toValue content
  | .enabled, content => .bool content

/-- `int`, `float` or `bool` of a saved value. -/
def convert (interpreter : Interpreter) :
    (field : TelemetryField) → Value → Except Raised field.Content
  | .callCount, value | .successCount, value => interpreter.toInt value
  | .alphaScore, value | .latencyMs, value | .failureRate, value => interpreter.float value
  | .enabled, value => .ok value.truthy

/-- The fields in the order in which `snapshot` writes and `restore` converts them. -/
def all : List TelemetryField :=
  [.callCount, .successCount, .alphaScore, .latencyMs, .failureRate, .enabled]

end TelemetryField

/-! ## Snapshot and restore -/

def ToolMetadata.saved (tool : ToolMetadata) : Dict String Value :=
  TelemetryField.all.map fun field => (field.key, field.toValue (field.get tool))

def snapshot (tools : Tools) : Dict String Value :=
  tools.map fun (name, tool) => (name, .dict tool.saved)

/-- What is converted for a field: the saved value or the one that is held, but `enabled` only when
it is saved. -/
def given (field : TelemetryField) (saved : Dict String Value) (tool : ToolMetadata) :
    Option Value :=
  match field with
  | .enabled => saved.lookup field.key
  | _ => some ((saved.lookup field.key).getD (field.toValue (field.get tool)))

/-- The assignments of the `try` block, and the exception that ends them. -/
def restoreFields (interpreter : Interpreter) (saved : Dict String Value) :
    List TelemetryField → ToolMetadata → ToolMetadata × Option Raised
  | [], tool => (tool, none)
  | field :: fields, tool =>
      match given field saved tool with
      | none => restoreFields interpreter saved fields tool
      | some value =>
          match field.convert interpreter value with
          | .ok content => restoreFields interpreter saved fields (field.put content tool)
          | .error raised => (tool, some raised)

/-- `except (TypeError, ValueError)`. -/
def Caught (raised : Raised) : Prop := raised = .typeError ∨ raised = .valueError

instance (raised : Raised) : Decidable (Caught raised) := inferInstanceAs (Decidable (_ ∨ _))

/-- `restore`: the tools after it, and how many were restored unless it raises. -/
def restore (interpreter : Interpreter) (data : Dict String Value) :
    Tools → Tools × Except Raised ℕ
  | [] => ([], .ok 0)
  | (name, tool) :: tools =>
      match data.lookup name with
      | some (.dict saved) =>
          match restoreFields interpreter saved TelemetryField.all tool with
          | (after, none) =>
              let (others, restored) := restore interpreter data tools
              ((name, after) :: others, restored.map (· + 1))
          | (after, some raised) =>
              if Caught raised then
                let (others, restored) := restore interpreter data tools
                ((name, after) :: others, restored)
              else ((name, after) :: tools, .error raised)
      | _ =>
          let (others, restored) := restore interpreter data tools
          ((name, tool) :: others, restored)

/-! ## Laws of the fields -/

namespace TelemetryField

variable (field : TelemetryField) (tool : ToolMetadata)

@[simp] theorem get_put (content : field.Content) :
    field.get (field.put content tool) = content := by
  cases field <;> rfl

@[simp] theorem put_get : field.put (field.get tool) tool = tool := by
  cases field <;> rfl

theorem get_put_of_ne {field other : TelemetryField} (different : other ≠ field)
    (content : field.Content) (tool : ToolMetadata) :
    other.get (field.put content tool) = other.get tool := by
  cases field <;> cases other <;> first | rfl | exact absurd rfl different

/-- What was saved is converted back. -/
@[simp] theorem convert_toValue (interpreter : Interpreter) (content : field.Content) :
    field.convert interpreter (field.toValue content) = .ok content := by
  have float : ∀ number : Number, interpreter.float number.toValue = .ok number := by
    intro number
    cases number <;> rfl
  cases field with
  | callCount => rfl
  | successCount => rfl
  | alphaScore => exact float content
  | latencyMs => exact float content
  | failureRate => exact float content
  | enabled => rfl

theorem mem_all : field ∈ all := by
  cases field <;> decide

theorem nodup_all : all.Nodup := by decide

end TelemetryField

theorem ToolMetadata.ext_get {first second : ToolMetadata}
    (same : ∀ field : TelemetryField, field.get first = field.get second) : first = second := by
  obtain ⟨enabled, alphaScore, latencyMs, failureRate, callCount, successCount⟩ := first
  obtain rfl : enabled = second.enabled := same .enabled
  obtain rfl : alphaScore = second.alphaScore := same .alphaScore
  obtain rfl : latencyMs = second.latencyMs := same .latencyMs
  obtain rfl : failureRate = second.failureRate := same .failureRate
  obtain rfl : callCount = second.callCount := same .callCount
  obtain rfl : successCount = second.successCount := same .successCount
  rfl

/-! ## Best effort for each field -/

section

variable (interpreter : Interpreter) (saved : Dict String Value) (tool : ToolMetadata)

/-- The saved value where it is well formed, and what is held where it is malformed or missing. -/
def expected (field : TelemetryField) : field.Content :=
  match saved.lookup field.key with
  | none => field.get tool
  | some value =>
      match field.convert interpreter value with
      | .ok content => content
      | .error _ => field.get tool

/-- The field has nothing to set: it is missing or malformed, or saved as what is held. -/
def Idle (field : TelemetryField) : Prop :=
  ∀ value ∈ saved.lookup field.key, ∀ content,
    field.convert interpreter value = .ok content → content = field.get tool

/-- The first malformed field raises an exception that is caught, and the fields after it have
nothing to set. -/
def Restorable : List TelemetryField → Prop
  | [] => True
  | field :: fields =>
      match saved.lookup field.key with
      | none => Restorable fields
      | some value =>
          match field.convert interpreter value with
          | .ok _ => Restorable fields
          | .error raised =>
              Caught raised ∧ ∀ later ∈ fields, Idle interpreter saved tool later

variable {interpreter saved tool} {field : TelemetryField}

theorem expected_of_missing (missing : saved.lookup field.key = none) :
    expected interpreter saved tool field = field.get tool := by
  rw [expected, missing]

theorem expected_of_ok {value : Value} {content : field.Content}
    (found : saved.lookup field.key = some value)
    (converted : field.convert interpreter value = .ok content) :
    expected interpreter saved tool field = content := by
  rw [expected, found]
  simp only [converted]

theorem expected_of_error {value : Value} {raised : Raised}
    (found : saved.lookup field.key = some value)
    (failed : field.convert interpreter value = .error raised) :
    expected interpreter saved tool field = field.get tool := by
  rw [expected, found]
  simp only [failed]

theorem idle_iff : Idle interpreter saved tool field ↔
    expected interpreter saved tool field = field.get tool := by
  constructor
  · intro idle
    cases found : saved.lookup field.key with
    | none => exact expected_of_missing found
    | some value =>
        cases converted : field.convert interpreter value with
        | ok content =>
            exact (expected_of_ok found converted).trans (idle value found content converted)
        | error raised => exact expected_of_error found converted
  · intro same value found content converted
    rw [← same, expected_of_ok found converted]

theorem restorable_of_missing {fields : List TelemetryField}
    (missing : saved.lookup field.key = none) :
    Restorable interpreter saved tool (field :: fields) ↔
      Restorable interpreter saved tool fields := by
  rw [Restorable, missing]

theorem restorable_of_ok {value : Value} {content : field.Content} {fields : List TelemetryField}
    (found : saved.lookup field.key = some value)
    (converted : field.convert interpreter value = .ok content) :
    Restorable interpreter saved tool (field :: fields) ↔
      Restorable interpreter saved tool fields := by
  rw [Restorable, found]
  simp only [converted]

theorem restorable_of_error {value : Value} {raised : Raised} {fields : List TelemetryField}
    (found : saved.lookup field.key = some value)
    (failed : field.convert interpreter value = .error raised) :
    Restorable interpreter saved tool (field :: fields) ↔
      Caught raised ∧ ∀ later ∈ fields, Idle interpreter saved tool later := by
  rw [Restorable, found]
  simp only [failed]

theorem expected_congr {other : ToolMetadata} (same : field.get other = field.get tool) :
    expected interpreter saved other field = expected interpreter saved tool field := by
  rw [expected, expected, same]

theorem restorable_congr {other : ToolMetadata} {fields : List TelemetryField}
    (same : ∀ field ∈ fields, field.get other = field.get tool) :
    Restorable interpreter saved other fields ↔ Restorable interpreter saved tool fields := by
  induction fields with
  | nil => rfl
  | cons field fields induction =>
      have later := induction fun field listed => same field (List.mem_cons_of_mem _ listed)
      cases found : saved.lookup field.key with
      | none => rw [restorable_of_missing found, restorable_of_missing found, later]
      | some value =>
          cases converted : field.convert interpreter value with
          | ok content =>
              rw [restorable_of_ok found converted, restorable_of_ok found converted, later]
          | error raised =>
              rw [restorable_of_error found converted, restorable_of_error found converted]
              refine and_congr_right fun _ => forall₂_congr fun field listed => ?_
              have held := same field (List.mem_cons_of_mem _ listed)
              rw [idle_iff, idle_iff, expected_congr held, held]

theorem restoreFields_none {fields : List TelemetryField}
    (nothing : given field saved tool = none) :
    restoreFields interpreter saved (field :: fields) tool =
      restoreFields interpreter saved fields tool := by
  rw [restoreFields, nothing]

theorem restoreFields_ok {value : Value} {content : field.Content} {fields : List TelemetryField}
    (given : given field saved tool = some value)
    (converted : field.convert interpreter value = .ok content) :
    restoreFields interpreter saved (field :: fields) tool =
      restoreFields interpreter saved fields (field.put content tool) := by
  rw [restoreFields, given]
  simp only [converted]

theorem restoreFields_error {value : Value} {raised : Raised} {fields : List TelemetryField}
    (given : given field saved tool = some value)
    (failed : field.convert interpreter value = .error raised) :
    restoreFields interpreter saved (field :: fields) tool = (tool, some raised) := by
  rw [restoreFields, given]
  simp only [failed]

theorem given_of_found {value : Value} (found : saved.lookup field.key = some value) :
    given field saved tool = some value := by
  cases field <;> simp [given, found]

theorem restoreFields_of_missing {fields : List TelemetryField}
    (missing : saved.lookup field.key = none) :
    restoreFields interpreter saved (field :: fields) tool =
      restoreFields interpreter saved fields tool := by
  by_cases enabled : field = .enabled
  · subst enabled
    exact restoreFields_none missing
  · have held : given field saved tool = some (field.toValue (field.get tool)) := by
      cases field <;> first | exact absurd rfl enabled | simp [given, missing]
    rw [restoreFields_ok held (field.convert_toValue interpreter _), field.put_get]

/-- The assignments end well and make of each field what is expected. -/
def FieldsRestored (interpreter : Interpreter) (saved : Dict String Value)
    (fields : List TelemetryField) (tool : ToolMetadata) : Prop :=
  (∀ raised ∈ (restoreFields interpreter saved fields tool).2, Caught raised) ∧
    ∀ field ∈ fields, field.get (restoreFields interpreter saved fields tool).1 =
      expected interpreter saved tool field

theorem get_restoreFields_of_notMem {fields : List TelemetryField} (absent : field ∉ fields) :
    field.get (restoreFields interpreter saved fields tool).1 = field.get tool := by
  induction fields generalizing tool with
  | nil => rfl
  | cons first fields induction =>
      obtain ⟨other, later⟩ := not_or.mp fun listed => absent (List.mem_cons.mpr listed)
      cases given : given first saved tool with
      | none => rw [restoreFields_none given, induction later]
      | some value =>
          cases converted : first.convert interpreter value with
          | ok content =>
              rw [restoreFields_ok given converted, induction later,
                TelemetryField.get_put_of_ne other]
          | error raised => rw [restoreFields_error given converted]

/-- A field that was assigned what is expected leaves the later ones to the rest of the block. -/
theorem fieldsRestored_cons {fields : List TelemetryField} {next : ToolMetadata}
    (fresh : field ∉ fields)
    (goesOn : restoreFields interpreter saved (field :: fields) tool =
      restoreFields interpreter saved fields next)
    (here : field.get next = expected interpreter saved tool field)
    (held : ∀ later ∈ fields, later.get next = later.get tool) :
    FieldsRestored interpreter saved (field :: fields) tool ↔
      FieldsRestored interpreter saved fields next := by
  rw [FieldsRestored, FieldsRestored, goesOn, List.forall_mem_cons]
  refine and_congr_right fun _ => ?_
  have assigned : field.get (restoreFields interpreter saved fields next).1 =
      expected interpreter saved tool field := (get_restoreFields_of_notMem fresh).trans here
  rw [and_iff_right assigned]
  refine forall₂_congr fun later listed => ?_
  rw [expected_congr (held later listed)]

theorem fieldsRestored_iff {fields : List TelemetryField} (distinct : fields.Nodup) :
    FieldsRestored interpreter saved fields tool ↔ Restorable interpreter saved tool fields := by
  induction fields generalizing tool with
  | nil =>
      refine iff_of_true ⟨?_, ?_⟩ trivial
      · intro raised ended
        cases ended
      · intro field listed
        cases listed
  | cons field fields induction =>
      obtain ⟨fresh, distinct⟩ := List.nodup_cons.mp distinct
      cases found : saved.lookup field.key with
      | none =>
          rw [restorable_of_missing found, ← induction distinct]
          exact fieldsRestored_cons fresh (restoreFields_of_missing found)
            (expected_of_missing found).symm fun _ _ => rfl
      | some value =>
          cases converted : field.convert interpreter value with
          | ok content =>
              have held : ∀ later ∈ fields,
                  later.get (field.put content tool) = later.get tool := by
                intro later listed
                refine TelemetryField.get_put_of_ne ?_ content tool
                rintro rfl
                exact fresh listed
              have here : field.get (field.put content tool) =
                  expected interpreter saved tool field :=
                (field.get_put tool content).trans (expected_of_ok found converted).symm
              rw [restorable_of_ok found converted, ← restorable_congr held, ← induction distinct]
              exact fieldsRestored_cons fresh (restoreFields_ok (given_of_found found) converted)
                here held
          | error raised =>
              have kept : expected interpreter saved tool field = field.get tool :=
                expected_of_error found converted
              rw [restorable_of_error found converted, FieldsRestored,
                restoreFields_error (given_of_found found) converted, List.forall_mem_cons]
              simp only [Option.mem_some, forall_eq', kept, true_and, idle_iff, eq_comm]

end

/-! ## Best effort for each tool -/

section

variable (interpreter : Interpreter) (data : Dict String Value)

/-- Each field of the tool as its saved value makes it, where an object is saved for the tool. -/
def merged (name : String) (tool : ToolMetadata) : ToolMetadata :=
  match data.lookup name with
  | some (.dict saved) =>
      { enabled := expected interpreter saved tool .enabled
        alphaScore := expected interpreter saved tool .alphaScore
        latencyMs := expected interpreter saved tool .latencyMs
        failureRate := expected interpreter saved tool .failureRate
        callCount := expected interpreter saved tool .callCount
        successCount := expected interpreter saved tool .successCount }
  | _ => tool

/-- `restore` does not raise, sets the fields whose saved value is well formed and leaves the
others. -/
def BestEffort (tools : Tools) : Prop :=
  (restore interpreter data tools).2.isOk = true ∧
    (restore interpreter data tools).1 =
      tools.map fun (name, tool) => (name, merged interpreter data name tool)

/-- No tool that is saved as an object has a malformed field that keeps a later one from being
set. -/
def Unblocked (tools : Tools) : Prop :=
  ∀ entry ∈ tools, ∀ saved, data.lookup entry.1 = some (.dict saved) →
    Restorable interpreter saved entry.2 TelemetryField.all

variable {interpreter data} {name : String} {tool : ToolMetadata} {tools : Tools}

theorem get_merged {saved : Dict String Value} (found : data.lookup name = some (.dict saved))
    (field : TelemetryField) :
    field.get (merged interpreter data name tool) = expected interpreter saved tool field := by
  rw [merged, found]
  cases field <;> rfl

theorem forall_get_eq_iff {saved : Dict String Value} {after : ToolMetadata}
    (found : data.lookup name = some (.dict saved)) :
    (∀ field ∈ TelemetryField.all, field.get after = expected interpreter saved tool field) ↔
      after = merged interpreter data name tool := by
  constructor
  · intro same
    refine ToolMetadata.ext_get fun field => ?_
    rw [get_merged found, same field field.mem_all]
  · rintro rfl field -
    exact get_merged found field

theorem map_id' (count : Except Raised ℕ) : count.map id = count := by
  cases count <;> rfl

/-- A tool that is passed with what is expected of it leaves the rest to the later ones. -/
theorem bestEffort_cons {after : ToolMetadata} {count : ℕ → ℕ}
    (goesOn : restore interpreter data ((name, tool) :: tools) =
      ((name, after) :: (restore interpreter data tools).1,
        (restore interpreter data tools).2.map count)) :
    BestEffort interpreter data ((name, tool) :: tools) ↔
      after = merged interpreter data name tool ∧ BestEffort interpreter data tools := by
  have ended : ((restore interpreter data tools).2.map count).isOk =
      (restore interpreter data tools).2.isOk := by
    cases (restore interpreter data tools).2 <;> rfl
  rw [BestEffort, BestEffort, goesOn, ended, List.map_cons, List.cons.injEq, Prod.mk.injEq]
  simp only [true_and, and_left_comm]

theorem unblocked_cons :
    Unblocked interpreter data ((name, tool) :: tools) ↔
      (∀ saved, data.lookup name = some (.dict saved) →
        Restorable interpreter saved tool TelemetryField.all) ∧
      Unblocked interpreter data tools :=
  List.forall_mem_cons

theorem restore_of_unsaved (unsaved : ∀ saved, data.lookup name ≠ some (.dict saved)) :
    restore interpreter data ((name, tool) :: tools) =
      ((name, tool) :: (restore interpreter data tools).1,
        (restore interpreter data tools).2.map id) := by
  rw [restore, map_id']
  split
  · exact absurd ‹_› (unsaved _)
  · rfl

theorem bestEffort_iff (tools : Tools) :
    BestEffort interpreter data tools ↔ Unblocked interpreter data tools := by
  induction tools with
  | nil => exact iff_of_true ⟨rfl, rfl⟩ fun _ listed => nomatch listed
  | cons entry tools induction =>
      obtain ⟨name, tool⟩ := entry
      rw [unblocked_cons, ← induction]
      by_cases found : ∃ saved, data.lookup name = some (.dict saved)
      · obtain ⟨saved, found⟩ := found
        have only : (∀ other, data.lookup name = some (.dict other) →
            Restorable interpreter other tool TelemetryField.all) ↔
            FieldsRestored interpreter saved TelemetryField.all tool := by
          rw [fieldsRestored_iff TelemetryField.nodup_all, found]
          simp
        rw [only, FieldsRestored, forall_get_eq_iff found]
        generalize block : restoreFields interpreter saved TelemetryField.all tool = outcome
        obtain ⟨after, ended⟩ := outcome
        dsimp only
        cases ended with
        | none =>
            have goesOn : restore interpreter data ((name, tool) :: tools) =
                ((name, after) :: (restore interpreter data tools).1,
                  (restore interpreter data tools).2.map (· + 1)) := by
              rw [restore, found]
              simp only [block]
            rw [bestEffort_cons goesOn]
            simp
        | some raised =>
            by_cases caught : Caught raised
            · have goesOn : restore interpreter data ((name, tool) :: tools) =
                  ((name, after) :: (restore interpreter data tools).1,
                    (restore interpreter data tools).2.map id) := by
                rw [restore, found, map_id']
                simp only [block, if_pos caught]
              rw [bestEffort_cons goesOn]
              simp [caught]
            · have stops : restore interpreter data ((name, tool) :: tools) =
                  ((name, after) :: tools, .error raised) := by
                rw [restore, found]
                simp only [block, if_neg caught]
              refine iff_of_false ?_ fun both => caught (both.1.1 raised rfl)
              rintro ⟨ended, -⟩
              rw [stops] at ended
              cases ended
      · have unsaved : ∀ saved, data.lookup name ≠ some (.dict saved) :=
          fun saved same => found ⟨saved, same⟩
        have kept : tool = merged interpreter data name tool := by
          rw [merged]
          split
          · exact absurd ‹_› (unsaved _)
          · rfl
        rw [bestEffort_cons (restore_of_unsaved unsaved), and_iff_right kept, and_iff_right]
        exact fun saved same => absurd same (unsaved saved)

end

/-! ## Snapshots -/

section

variable {interpreter : Interpreter} {tool other : ToolMetadata} {tools others : Tools}

theorem lookup_saved (field : TelemetryField) (tool : ToolMetadata) :
    tool.saved.lookup field.key = some (field.toValue (field.get tool)) := by
  cases field <;> rfl

theorem restorable_saved (fields : List TelemetryField) :
    Restorable interpreter other.saved tool fields := by
  induction fields with
  | nil => trivial
  | cons field fields induction =>
      rw [restorable_of_ok (lookup_saved field other) (field.convert_toValue interpreter _)]
      exact induction

theorem lookup_snapshot (name : String) (others : Tools) :
    (snapshot others).lookup name = (others.lookup name).map fun other => .dict other.saved :=
  Dict.lookup_map_value (fun other : ToolMetadata => Value.dict other.saved) name others

theorem unblocked_snapshot (others tools : Tools) :
    Unblocked interpreter (snapshot others) tools := by
  intro entry _ saved found
  rw [lookup_snapshot, Option.map_eq_some_iff] at found
  obtain ⟨other, -, same⟩ := found
  obtain rfl : other.saved = saved := Value.dict.inj same
  exact restorable_saved _

theorem merged_snapshot (name : String) (tool : ToolMetadata) (others : Tools) :
    merged interpreter (snapshot others) name tool = (others.lookup name).getD tool := by
  cases found : others.lookup name with
  | none => rw [merged, lookup_snapshot, found]; rfl
  | some other =>
      have saved : (snapshot others).lookup name = some (.dict other.saved) := by
        rw [lookup_snapshot, found]
        rfl
      refine ToolMetadata.ext_get fun field => ?_
      rw [get_merged saved,
        expected_of_ok (lookup_saved field other) (field.convert_toValue interpreter _)]
      rfl

theorem restore_snapshot (others tools : Tools) :
    (restore interpreter (snapshot others) tools).2.isOk = true ∧
      (restore interpreter (snapshot others) tools).1 =
        tools.map fun (name, tool) => (name, (others.lookup name).getD tool) := by
  have unblocked : Unblocked interpreter (snapshot others) tools := unblocked_snapshot others tools
  obtain ⟨ended, after⟩ := (bestEffort_iff tools).mpr unblocked
  refine ⟨ended, ?_⟩
  rw [after]
  simp only [merged_snapshot]

/-- The tools of a catalog with the telemetry of another registry of its names. -/
theorem map_lookup_eq (distinct : (Dict.keys others).Nodup)
    (keys : Dict.keys tools = Dict.keys others) :
    tools.map (fun (name, tool) => (name, (others.lookup name).getD tool)) = others := by
  have found : ∀ entry ∈ others, others.lookup entry.1 = some entry.2 :=
    fun entry listed => Dict.lookup_of_mem distinct listed
  suffices part : ∀ some : Tools, Dict.keys tools = Dict.keys some →
      (∀ entry ∈ some, others.lookup entry.1 = Option.some entry.2) →
      tools.map (fun (name, tool) => (name, (others.lookup name).getD tool)) = some from
    part others keys found
  clear keys
  induction tools with
  | nil =>
      intro part keys _
      exact (List.map_eq_nil_iff.mp keys.symm).symm
  | cons entry tools induction =>
      intro part keys found
      cases part with
      | nil => cases keys
      | cons first part =>
          obtain ⟨same, keys⟩ := List.cons.inj keys
          obtain ⟨here, later⟩ := List.forall_mem_cons.mp found
          rw [List.map_cons, induction part keys later]
          dsimp only at same ⊢
          rw [same, here]
          rfl

theorem keys_recordAll (tools : Tools) (calls : List ToolCall) :
    Dict.keys (recordAll tools calls) = Dict.keys tools := by
  induction calls generalizing tools with
  | nil => rfl
  | cons call calls induction =>
      have step : Dict.keys (recordCall tools call).2 = Dict.keys tools := by
        rw [recordCall, Dict.keys_modify]
      exact (induction (recordCall tools call).2).trans step

/-! ## Through JSON -/

/-- The runtime prints the floats of the telemetry as `float` reads them. -/
def Printable (runtime : Runtime) (tools : Tools) : Prop :=
  ∀ entry ∈ tools, ∀ x, Number.finite x ∈
    [entry.2.alphaScore, entry.2.latencyMs, entry.2.failureRate] → Json.FloatText runtime x

theorem faithful_snapshot {runtime : Runtime} (distinct : (Dict.keys tools).Nodup)
    (prints : Printable runtime tools) : Json.Faithful runtime (.dict (snapshot tools)) := by
  have keys : Dict.keys (snapshot tools) = Dict.keys tools := by
    rw [Dict.keys, snapshot, List.map_map]
    rfl
  refine .dict _ (keys ▸ distinct) fun saved listed => ?_
  obtain ⟨entry, member, rfl⟩ := List.mem_map.mp listed
  have number : ∀ number ∈ [entry.2.alphaScore, entry.2.latencyMs, entry.2.failureRate],
      Json.Faithful runtime number.toValue := by
    intro number held
    cases number with
    | finite x => exact .float x (prints entry member x held)
    | nonFinite value => exact .nonFinite value
  refine .dict _ (by simp [Dict.keys, ToolMetadata.saved, TelemetryField.all]; decide) ?_
  intro field saved
  obtain ⟨field, -, rfl⟩ := List.mem_map.mp saved
  cases field with
  | callCount => exact .int _
  | successCount => exact .int _
  | alphaScore => exact number entry.2.alphaScore (by simp)
  | latencyMs => exact number entry.2.latencyMs (by simp)
  | failureRate => exact number entry.2.failureRate (by simp)
  | enabled => exact .bool _

/-- A snapshot that was written is read back and restores what it was taken of. -/
theorem restore_written {seeded : Tools} {calls : List ToolCall} {text : String}
    (distinct : (Dict.keys seeded).Nodup)
    (written : Json.dumps interpreter.toRuntime interpreter.depth {}
      (.dict (snapshot (recordAll seeded calls))) = .ok text)
    (prints : Printable interpreter.toRuntime (recordAll seeded calls)) :
    ∃ data, Json.loads interpreter.toRuntime interpreter.depth text = .ok (.dict data) ∧
      (restore interpreter data seeded).2.isOk = true ∧
      (restore interpreter data seeded).1 = recordAll seeded calls := by
  have keys := keys_recordAll seeded calls
  have distinctAfter : (Dict.keys (recordAll seeded calls)).Nodup := keys ▸ distinct
  have read := @Json.loads_dumps interpreter.toRuntime interpreter.depth {} _ text written
    (faithful_snapshot distinctAfter prints) "" (by simp)
  rw [String.append_empty] at read
  obtain ⟨ended, after⟩ := @restore_snapshot interpreter (recordAll seeded calls) seeded
  exact ⟨_, read, ended, after.trans (map_lookup_eq distinctAfter keys.symm)⟩

/-! ## Counts -/

/-- No tool has more successes than calls. -/
def Counted (tools : Tools) : Prop :=
  ∀ entry ∈ tools, entry.2.successCount ≤ entry.2.callCount

theorem counted_recordCall (counted : Counted tools) (call : ToolCall) :
    Counted (recordCall tools call).2 := by
  intro entry listed
  obtain ⟨⟨name, tool⟩, member, rfl⟩ := List.mem_map.mp listed
  have held := counted _ member
  dsimp only at held ⊢
  split_ifs
  · rw [ToolMetadata.recorded]
    dsimp only
    split_ifs <;> omega
  · exact held

theorem counted_recordAll (counted : Counted tools) (calls : List ToolCall) :
    Counted (recordAll tools calls) := by
  induction calls generalizing tools with
  | nil => exact counted
  | cons call calls induction => exact induction (counted_recordCall counted call)

theorem counted_restore (counted : Counted tools) (saved : Counted others) :
    Counted (restore interpreter (snapshot others) tools).1 := by
  rw [(restore_snapshot others tools).2]
  intro entry listed
  obtain ⟨⟨name, tool⟩, member, rfl⟩ := List.mem_map.mp listed
  cases found : others.lookup name with
  | none =>
      simp only [found, Option.getD_none]
      exact counted _ member
  | some other =>
      simp only [found, Option.getD_some]
      exact saved _ (Dict.mem_of_lookup found)

/-- Snapshots restore what they were taken of, in whole or in a catalog that has changed since; any
other object restores field by field exactly where no malformed field blocks a later one or raises
what is not caught. -/
theorem telemetry_restore_iff (interpreter : Interpreter) :
    (∀ (seeded : Tools) (calls : List ToolCall) (text : String), (Dict.keys seeded).Nodup →
      Json.dumps interpreter.toRuntime interpreter.depth {}
        (.dict (snapshot (recordAll seeded calls))) = .ok text →
      Printable interpreter.toRuntime (recordAll seeded calls) →
      ∃ data, Json.loads interpreter.toRuntime interpreter.depth text = .ok (.dict data) ∧
        (restore interpreter data seeded).2.isOk = true ∧
        (restore interpreter data seeded).1 = recordAll seeded calls) ∧
    (∀ data tools, BestEffort interpreter data tools ↔ Unblocked interpreter data tools) ∧
    ∀ (catalog seeded : Tools) (calls : List ToolCall), Counted catalog → Counted seeded →
      Counted (restore interpreter (snapshot (recordAll catalog calls)) seeded).1 := by
  refine ⟨?_, fun _ => bestEffort_iff, ?_⟩
  · intro seeded calls text distinct written prints
    exact restore_written distinct written prints
  · intro catalog seeded calls counted seeds
    exact counted_restore seeds (counted_recordAll counted calls)

end

/-- Two calls of a tool, saved and restored. -/
theorem telemetry_restored_after_calls :
    let seeded : Tools := [("t", { alphaScore := .finite (1 / 2), latencyMs := .finite 42 })]
    let calls : List ToolCall := [⟨"t", .finite 50, true, some (.finite 10)⟩,
      ⟨"t", .finite 150, false, some (.finite (-10))⟩]
    ∃ text data, Json.loads Reference.decimalRuntime 900 text = .ok (.dict data) ∧
      (restore Reference.decimalInterpreter data seeded).2.isOk = true ∧
      (restore Reference.decimalInterpreter data seeded).1 = recordAll seeded calls ∧
      recordAll seeded calls = [("t", ⟨true, .finite 6, .finite 70, .finite (1 / 5), 2, 1⟩)] := by
  intro seeded calls
  have after : recordAll seeded calls =
      [("t", ⟨true, .finite 6, .finite 70, .finite (1 / 5), 2, 1⟩)] := by decide +kernel
  have prints : ∀ x ∈ [6, 70, 1 / 5], Json.FloatText Reference.decimalRuntime x := by
    decide +kernel
  obtain ⟨text, written⟩ : ∃ text, Json.dumps Reference.decimalRuntime 900 {}
      (.dict (snapshot (recordAll seeded calls))) = .ok text := by
    cases written : Json.dumps Reference.decimalRuntime 900 {}
        (.dict (snapshot (recordAll seeded calls))) with
    | ok text => exact ⟨text, rfl⟩
    | error raised =>
        have writes : (Json.dumps Reference.decimalRuntime 900 {}
          (.dict (snapshot (recordAll seeded calls)))).isOk = true := by decide +kernel
        rw [written] at writes
        cases writes
  have printable : Printable Reference.decimalRuntime (recordAll seeded calls) := by
    rw [after]
    intro entry listed x held
    obtain rfl := List.mem_singleton.mp listed
    refine prints x ?_
    simpa using held
  obtain ⟨data, read, ended, restored⟩ := (telemetry_restore_iff Reference.decimalInterpreter).1
    seeded calls text (List.nodup_singleton _) written printable
  exact ⟨text, data, read, ended, restored, after⟩

/-- A call count of `null` keeps the score and the enabled state from being set, and one of
`Infinity` raises. -/
theorem malformed_count_blocks :
    let blocked : Dict String Value := [("t", .dict [("call_count", .none),
      ("alpha_score", .float (9 / 10)), ("enabled", .bool false)])]
    let raises : Dict String Value := [("t", .dict [("call_count", .nonFinite .infinity)])]
    restore Reference.decimalInterpreter blocked [("t", {})] = ([("t", {})], .ok 0) ∧
      merged Reference.decimalInterpreter blocked "t" {} =
        { alphaScore := .finite (9 / 10), enabled := false } ∧
      restore Reference.decimalInterpreter raises [("t", {})] =
        ([("t", {})], .error .overflowError) ∧
      ¬ ∀ interpreter data tools, BestEffort interpreter data tools := by
  intro blocked raises
  have raised : restore Reference.decimalInterpreter raises [("t", {})] =
      ([("t", {})], .error .overflowError) := rfl
  refine ⟨rfl, by decide +kernel, raised, fun bestEffort => ?_⟩
  have ended := (bestEffort Reference.decimalInterpreter raises [("t", {})]).1
  rw [raised] at ended
  cases ended

end TradingControl.Agents
