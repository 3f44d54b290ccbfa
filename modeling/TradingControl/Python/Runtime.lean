import Mathlib.Algebra.BigOperators.Group.List.Basic
import Mathlib.Algebra.Order.Group.Unbundled.Abs
import Mathlib.Data.Rat.Floor
import TradingControl.Python.Text

/-!
# Python values

Floats are exact rationals here.  A payload field that the source passes to `float()` is absent, a
number, or a non-empty string that `float()` accepts or rejects; values are what JSON decoding
produces.
-/

namespace Python

/-- `round(x, places)`: to the nearest multiple of `10 ^ -places`, ties to the even one. -/
def roundHalfEven (places : ℕ) (x : ℚ) : ℚ :=
  let scaled := x * 10 ^ places
  let below := ⌊scaled⌋
  let nearest :=
    if scaled - below < 1 / 2 then below
    else if 1 / 2 < scaled - below then below + 1
    else if below % 2 = 0 then below else below + 1
  nearest / 10 ^ places

example : roundHalfEven 1 (5 / 4) = 6 / 5 := by decide +kernel

/-- A payload field read as a number. -/
inductive Scalar where
  /-- Missing, `None` or the empty string. -/
  | absent
  /-- A non-empty string, with the value `float()` finds in it, if any. -/
  | text (value : Option ℚ)
  /-- A number. -/
  | number (value : ℚ)
deriving DecidableEq

namespace Scalar

/-- `bool(field)`. -/
def truthy : Scalar → Bool
  | .absent => false
  | .text _ => true
  | .number value => value ≠ 0

/-- `float(field)`, or `none` where it raises `TypeError` or `ValueError`. -/
def toFloat : Scalar → Option ℚ
  | .absent => none
  | .text value => value
  | .number value => some value

/-- `float(field or 0.0)`. -/
def toFloatOrZero (field : Scalar) : Option ℚ :=
  if field.truthy then field.toFloat else some 0

end Scalar

/-! ## Values -/

/-- A float that is no rational. -/
inductive NonFinite where
  | infinity
  | negativeInfinity
  | nan
deriving DecidableEq, Repr

/-- `str(x)`. -/
def NonFinite.text : NonFinite → String
  | .infinity => "inf"
  | .negativeInfinity => "-inf"
  | .nan => "nan"

/-- A decoded JSON value. -/
inductive Value where
  | none
  | bool (value : Bool)
  | int (value : ℤ)
  | float (value : ℚ)
  | nonFinite (value : NonFinite)
  | str (value : String)
  | list (items : List Value)
  | dict (entries : List (String × Value))

namespace Value

/-- `d.get(key)` on the entries of a dictionary. -/
def get (entries : List (String × Value)) (key : String) : Option Value := entries.lookup key

/-- `value == text` for a string constant. -/
def isText (text : String) : Value → Bool
  | .str value => value = text
  | _ => false

end Value

end Python

/-!
# Numbers and texts of the runtime

Floats are exact rationals, so the functions that leave the rationals and the texts of floats are
parameters.
-/

namespace Python

/-- Exceptions of the conversions and operators the source uses. -/
inductive Raised where
  | typeError
  | valueError
  | attributeError
  | keyError
  | overflowError
  | zeroDivisionError
  | recursionError
  | jsonDecodeError
  /-- No exception: the float is no rational. -/
  | notFinite
deriving DecidableEq, Repr

/-- A call returns something. -/
def returnsSome {α : Type} : Except Raised (Option α) → Bool
  | .ok (some _) => true
  | _ => false

theorem exists_of_returnsSome {α : Type} {result : Except Raised (Option α)}
    (returns : returnsSome result = true) : ∃ value, result = .ok (some value) := by
  rcases result with error | ⟨_ | value⟩
  · cases returns
  · cases returns
  · exact ⟨value, rfl⟩

theorem bind_eq_ok {ε α β : Type} {first : Except ε α} {next : α → Except ε β} {result : β} :
    first >>= next = .ok result ↔ ∃ middle, first = .ok middle ∧ next middle = .ok result := by
  cases first with
  | error error => simp [bind, Except.bind]
  | ok middle => simp [bind, Except.bind]

/-- `x / y` of floats. -/
def divide (x y : ℚ) : Except Raised ℚ :=
  if y = 0 then .error .zeroDivisionError else .ok (x / y)

theorem divide_of_ne (x : ℚ) {y : ℚ} (nonzero : y ≠ 0) : divide x y = .ok (x / y) :=
  if_neg nonzero

@[simp] theorem divide_zero (x : ℚ) : divide x 0 = .error .zeroDivisionError := rfl

structure Runtime where
  /-- `math.tanh`. -/
  tanh : ℚ → ℚ
  /-- `statistics.pstdev`. -/
  pstdev : List ℚ → ℚ
  /-- The draws of `random.Random(seed).uniform`, by seed and position, scaled to the interval from
  0 to 1. -/
  draw : ℤ → ℕ → ℚ
  /-- `repr(value)`. -/
  repr : Value → String
  /-- `f"{x:+}"`. -/
  signed : ℚ → String
  /-- `f"{x:+.2f}"`. -/
  signedHundredths : ℚ → String
  /-- `f"{x:.2f}"`. -/
  hundredths : ℚ → String
  /-- The finite number that `float` finds in a text. -/
  parseFloat : String → Option ℚ
  /-- The number that `int` finds in a text. -/
  parseInt : String → Option ℤ

/-- Integers from here on are too large for a float. -/
def floatLimit : ℤ := 2 ^ 1024 - 2 ^ 970

namespace Runtime

/-- `str(value)`. -/
def str (runtime : Runtime) : Value → String
  | .str text => text
  | value => runtime.repr value

/-- `str(x)` of a float. -/
def text (runtime : Runtime) (x : ℚ) : String := runtime.repr (.float x)

/-- `float(value)`. -/
def toFloat (runtime : Runtime) : Value → Except Raised ℚ
  | .bool value => .ok (if value then 1 else 0)
  | .int value => if |value| < floatLimit then .ok value else .error .overflowError
  | .float value => .ok value
  | .nonFinite _ => .error .notFinite
  | .str text =>
      match runtime.parseFloat text with
      | some value => .ok value
      | none => .error .valueError
  | _ => .error .typeError

/-- `float(value)` as a value. -/
def floatValue (runtime : Runtime) : Value → Except Raised Value
  | .nonFinite value => .ok (.nonFinite value)
  | value => (runtime.toFloat value).map .float

/-- `int(value)`; a float is cut off towards zero. -/
def toInt (runtime : Runtime) : Value → Except Raised ℤ
  | .bool value => .ok (if value then 1 else 0)
  | .int value => .ok value
  | .float value => .ok (value.num.tdiv value.den)
  | .nonFinite .nan => .error .valueError
  | .nonFinite _ => .error .overflowError
  | .str text =>
      match runtime.parseInt text with
      | some value => .ok value
      | none => .error .valueError
  | _ => .error .typeError

/-- `random.uniform(low, high)`. -/
def uniform (runtime : Runtime) (seed : ℤ) (position : ℕ) (low high : ℚ) : ℚ :=
  low + (high - low) * runtime.draw seed position

end Runtime

/-- `bool(value)`. -/
def Value.truthy : Value → Bool
  | .none => false
  | .bool value => value
  | .int value => value ≠ 0
  | .float value => value ≠ 0
  | .nonFinite _ => true
  | .str text => text ≠ ""
  | .list items => !items.isEmpty
  | .dict entries => !entries.isEmpty

/-- `statistics.fmean` of a list that is not empty. -/
def fmean (values : List ℚ) : ℚ := values.sum / values.length

/-- `values[-count:]` for a positive count. -/
def lastItems {α : Type} (count : ℕ) (values : List α) : List α :=
  values.drop (values.length - count)

/-- `text.split(".")[-1]`. -/
def lastSegment (text : String) : String :=
  String.ofList ((text.toList.reverse.takeWhile (· ≠ '.')).reverse)

/-- `-1`, `0` or `1`. -/
def sign (x : ℚ) : ℤ := if 0 < x then 1 else if x < 0 then -1 else 0

/-- Sign of the difference of two floats; an infinity outweighs the rest, and what is no number has
no sign. -/
def differenceSign : Value → Value → ℤ
  | .float first, .float second => sign (first - second)
  | .nonFinite .infinity, .float _ => 1
  | .nonFinite .infinity, .nonFinite .negativeInfinity => 1
  | .nonFinite .negativeInfinity, .float _ => -1
  | .nonFinite .negativeInfinity, .nonFinite .infinity => -1
  | .float _, .nonFinite .infinity => -1
  | .float _, .nonFinite .negativeInfinity => 1
  | _, _ => 0

end Python
