import TradingControl.Python.Json
import TradingControl.Python.Rounding

/-!
# Operators on decoded values

Conversion to a float, equality, membership and iteration, as Python applies them to what a JSON
text may hold.
-/

namespace Python

/-! ## Equality -/

namespace Value

/-- The number an equality compares; a truth value counts as zero or one. -/
def number? : Value → Option ℚ
  | .bool value => some (if value then 1 else 0)
  | .int value => some value
  | .float value => some value
  | _ => Option.none

mutual

/-- `first == second`. -/
def equal : Value → Value → Bool
  | .none, .none => true
  | .str first, .str second => first = second
  | .nonFinite first, .nonFinite second => first = second && first ≠ .nan
  | .list first, .list second => equalItems first second
  | .dict first, .dict second => first.length = second.length && equalEntries first second
  | first, second =>
      match first.number?, second.number? with
      | some first, some second => first = second
      | _, _ => false

def equalItems : List Value → List Value → Bool
  | [], [] => true
  | first :: firsts, second :: seconds => equal first second && equalItems firsts seconds
  | _, _ => false

def equalEntries : List (String × Value) → List (String × Value) → Bool
  | [], _ => true
  | (key, value) :: rest, held =>
      (match held.lookup key with
        | some other => equal value other
        | Option.none => false) && equalEntries rest held

end

/-- `item in value`. -/
def holds (value item : Value) : Except Raised Bool :=
  match value, item with
  | .list items, _ => .ok (items.any (equal item))
  | .str text, .str pattern => .ok (contains text pattern)
  | .dict _, .list _ | .dict _, .dict _ => .error .typeError
  | .dict entries, .str key => .ok (entries.lookup key).isSome
  | .dict _, _ => .ok false
  | _, _ => .error .typeError

/-- `list(value)`. -/
def items : Value → Except Raised (List Value)
  | .list items => .ok items
  | .str text => .ok (text.toList.map fun letter => .str (String.singleton letter))
  | .dict entries => .ok (entries.map fun entry => .str entry.1)
  | _ => .error .typeError

/-- The dictionary that `.get` needs. -/
def entries : Value → Except Raised (Dict String Value)
  | .dict entries => .ok entries
  | _ => .error .attributeError

/-- `field or default`. -/
def orElse (field : Option Value) (default : Value) : Value :=
  match field with
  | some value => if value.truthy then value else default
  | Option.none => default

end Value

example : Value.equal (.list [.int 1, .bool false]) (.list [.float 1, .int 0]) = true := by decide

/-! ## Conversion -/

/-- The interpreter, as far as texts of numbers and errors depend on it. -/
structure Interpreter extends Runtime where
  /-- Levels that a JSON text may nest. -/
  depth : ℕ
  /-- The float that `float` finds in a text, one that is not rational included. -/
  parseNumber : String → Option Number
  /-- `f"{x:+.0f}"`. -/
  signedWhole : ℚ → String
  /-- `f"{x:+.3f}"`. -/
  signedThousandths : ℚ → String
  /-- `str(error)`. -/
  errorText : Raised → String

namespace Interpreter

/-- `float(value)`. -/
def float (interpreter : Interpreter) : Value → Except Raised Number
  | .bool value => .ok (.finite (if value then 1 else 0))
  | .int value => if |value| < floatLimit then .ok (.finite value) else .error .overflowError
  | .float value => .ok (.finite value)
  | .nonFinite value => .ok (.nonFinite value)
  | .str text =>
      match interpreter.parseNumber text with
      | some value => .ok value
      | none => .error .valueError
  | _ => .error .typeError

/-- `float(field or default)`. -/
def floatOr (interpreter : Interpreter) (field : Option Value) (default : ℚ) :
    Except Raised Number :=
  interpreter.float (Value.orElse field (.float default))

/-- `f"{x:+.2f}"`. -/
def signedNumber (interpreter : Interpreter) : Number → String
  | .finite value => interpreter.signedHundredths value
  | .nonFinite .negativeInfinity => "-inf"
  | .nonFinite value => "+" ++ value.text

end Interpreter

end Python
