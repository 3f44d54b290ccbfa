import Mathlib.Data.Nat.Sqrt
import TradingControl.Python.Operators

/-!
# A runtime that evaluates

Rational stand-ins for the functions of the runtime, close enough to the real ones that every
rounded result agrees, and the texts of floats with at most six decimals.
-/

namespace Python.Reference

/-- The continued fraction of `x / tanh x`, to a depth. -/
def tanhFraction (square : ℚ) : ℕ → ℚ → ℚ
  | 0, odd => odd
  | depth + 1, odd => odd + square / tanhFraction square depth (odd + 2)

/-- `math.tanh`, which is 1 as a float from 20 on. -/
def tanh (x : ℚ) : ℚ :=
  if 20 ≤ |x| then sign x else roundHalfEven 17 (x / tanhFraction (x * x) 30 1)

/-- `math.sqrt` to twenty decimals. -/
def sqrt (x : ℚ) : ℚ := Nat.sqrt ⌊x * 10 ^ 40⌋.toNat / 10 ^ 20

/-- `statistics.pstdev`. -/
def pstdev (values : List ℚ) : ℚ :=
  let mean := fmean values
  sqrt (fmean (values.map fun value => (value - mean) ^ 2))

/-- The first draws of `random.Random(0)`, as multiples of `2 ** -53`. -/
def drawsOfZero : List ℕ :=
  [7605875871743422, 6827046333291546, 3788172029424828, 2332114760278739, 4605153289279239,
    3647322461062558, 7059830067021045, 2731998160291574, 4292803730252926, 5254638271008637,
    8179553702752115, 4545815071595972, 2538569622034820, 6807679064415056, 5569772766008982,
    2256360531227667, 8194265798760540, 8852144607336620, 7297788084246788, 8125988476452108,
    2793560955232823, 6573739979014946, 8096015557517980, 6160779561803576, 4252683514757068,
    907035846264902, 3910672232728849, 5502380691933990, 8223672478294685, 8706416155412676,
    4296522103869800, 7794018936544698, 2346306144028216, 7251046043517455, 4942243960584821,
    126476391252648, 6482523515011295, 3592283112295596, 7429543063446415, 6018189016188335,
    10293601277222, 4445754190983121, 7814671072829792, 2196953868520997, 2929180493776811,
    7840507833122547, 1720979364185861, 5111682319976024, 2149261214392341, 8714827821345292,
    7234397517120911, 4034951189981111, 724591516913426, 2882795596682977, 4575122576763974,
    8402220126373784, 982305748594295, 4965373928149932, 6364139404381793, 4930909368532108,
    7336065324048955, 4866442102051877, 8681485832985861, 5433013138644246, 5292783982514080,
    4008104825836749, 5370874575263200, 3466881315153901, 5185003385776880, 2615055677671445,
    1705885433409203, 1681910067741573]

def draw (_seed : ℤ) (position : ℕ) : ℚ := drawsOfZero.getD position 0 / 2 ^ 53

/-- Digits of a number below a power of ten, with leading zeros. -/
def digits : ℕ → ℕ → List Char
  | 0, _ => []
  | count + 1, number => digits count (number / 10) ++ [Nat.digitChar (number % 10)]

/-- The text of a number with so many decimals. -/
def fixed (places : ℕ) (x : ℚ) : String :=
  let scaled := (roundHalfEven places |x| * 10 ^ places).num.toNat
  (if x < 0 then "-" else "") ++ Nat.repr (scaled / 10 ^ places) ++ "." ++
    String.ofList (digits places (scaled % 10 ^ places))

/-- `repr(x)` of a float with at most six decimals. -/
def floatText (x : ℚ) : String :=
  let zeros := ((fixed 6 x).toList.reverse.takeWhile (· = '0')).length
  String.ofList ((fixed 6 x).toList.take ((fixed 6 x).toList.length - min 5 zeros))

/-- The sign that the format `+` puts before a number. -/
def plus (x : ℚ) : String := if x < 0 then "" else "+"

/-- `repr(value)` of texts without quotes; nested values are not printed. -/
def repr : Value → String
  | .none => "None"
  | .bool value => if value then "True" else "False"
  | .int value => toString value
  | .float value => floatText value
  | .nonFinite value => value.text
  | .str text => "'" ++ text ++ "'"
  | .list _ => "[...]"
  | .dict _ => "\x7b...\x7d"

/-- The runtime, where no text is a number. -/
def runtime : Runtime where
  tanh := tanh
  pstdev := pstdev
  draw := draw
  repr := repr
  signed x := plus x ++ floatText x
  signedHundredths x := plus x ++ fixed 2 x
  hundredths := fixed 2
  parseFloat _ := none
  parseInt _ := none

/-- The number in a text without an exponent. -/
def decimal (text : String) : Option ℚ :=
  match Json.scanNumeral text.toList with
  | some (⟨negative, whole, fraction, []⟩, []) =>
      let places := fraction.drop 1
      let magnitude : ℚ :=
        Nat.ofDigitChars 10 whole 0 + Nat.ofDigitChars 10 places 0 / 10 ^ places.length
      some (if negative then -magnitude else magnitude)
  | _ => none

/-- The runtime, where the texts of numbers are numbers. -/
def decimalRuntime : Runtime := { runtime with parseFloat := decimal }

/-- An interpreter that says the same of every text it cannot read. -/
def interpreter : Json.Interpreter := ⟨900, by decide, fun _ => "Expecting value"⟩

/-- An interpreter that reads the texts of decimal numbers and says the same of every error. -/
def decimalInterpreter : Interpreter where
  toRuntime := decimalRuntime
  depth := 900
  parseNumber text := (decimal text).map .finite
  signedWhole x := plus x ++ toString (nearest x)
  signedThousandths x := plus x ++ fixed 3 x
  errorText _ := "error"

example : runtime.text (-29 / 100) = "-0.29" := by decide +kernel

example : roundHalfEven 6 (tanh 1) = 761594 / 10 ^ 6 := by decide +kernel

end Python.Reference
