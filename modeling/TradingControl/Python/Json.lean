import Mathlib.Data.List.Sort
import TradingControl.Python.Dict
import TradingControl.Python.Runtime

/-!
# JSON texts

`json.dumps` and `json.loads`, on lists of characters.  Texts hold no surrogates here, so a
surrogate without its pair is read as the replacement character.
-/

namespace Python.Json

/-- Digits that an integer may have in a text. -/
def maxStrDigits : ℕ := 4300

/-- The interpreter, as far as its JSON texts depend on it. -/
structure Interpreter where
  /-- Levels that a value may nest before `RecursionError`. -/
  depth : ℕ
  deep : 16 ≤ depth
  /-- The text of the `JSONDecodeError` that a text raises. -/
  errorText : String → String

/-! ## Writing -/

/-- Four hexadecimal digits. -/
def hex4 (unit : ℕ) : List Char :=
  [Nat.digitChar (unit / 4096 % 16), Nat.digitChar (unit / 256 % 16),
    Nat.digitChar (unit / 16 % 16), Nat.digitChar (unit % 16)]

/-- Characters that a letter after the backslash stands for. -/
def shortEscapes : List (Char × Char) :=
  [('\x22', '\x22'), ('\\', '\\'), ('\n', 'n'), ('\r', 'r'), ('\t', 't'), ('\x0c', 'f'),
    ('\x08', 'b')]

def escape (letter : Char) : List Char :=
  match shortEscapes.lookup letter with
  | some short => ['\\', short]
  | none =>
      if 32 ≤ letter.toNat ∧ letter.toNat ≤ 126 then [letter]
      else if letter.toNat < 0x10000 then '\\' :: 'u' :: hex4 letter.toNat
      else
        let above := letter.toNat - 0x10000
        '\\' :: 'u' :: hex4 (0xd800 + above / 0x400) ++
          '\\' :: 'u' :: hex4 (0xdc00 + above % 0x400)

def encodeText (text : String) : List Char :=
  '\x22' :: text.toList.flatMap escape ++ ['\x22']

def encodeInt (value : ℤ) : List Char :=
  (if value < 0 then ['-'] else []) ++ Nat.toDigits 10 value.natAbs

def encodeNonFinite : NonFinite → List Char
  | .nan => "NaN".toList
  | .infinity => "Infinity".toList
  | .negativeInfinity => "-Infinity".toList

def lineBreak (indent : Option ℕ) (level : ℕ) : List Char :=
  match indent with
  | none => []
  | some width => '\n' :: List.replicate (width * level) ' '

def separator (indent : Option ℕ) (level : ℕ) : List Char :=
  match indent with
  | none => [',', ' ']
  | some _ => ',' :: lineBreak indent level

/-- Items between brackets. -/
def enclosed (indent : Option ℕ) (level : ℕ) (opening closing : Char) :
    List (List Char) → List Char
  | [] => [opening, closing]
  | first :: others =>
      opening :: lineBreak indent (level + 1) ++ first ++
        others.flatMap (separator indent (level + 1) ++ ·) ++ lineBreak indent level ++ [closing]

/-- A key and its value. -/
def encodeEntry (convert : Value → Except Raised (List Char)) (entry : String × Value) :
    Except Raised (List Char) := do
  return encodeText entry.1 ++ [':', ' '] ++ (← convert entry.2)

/-- A value at a level of indentation, with so many levels left before the interpreter gives up. -/
def encode (runtime : Runtime) (indent : Option ℕ) : ℕ → ℕ → Value → Except Raised (List Char)
  | _, _, .none => .ok "null".toList
  | _, _, .bool value => .ok (if value then "true" else "false").toList
  | _, _, .int value =>
      if maxStrDigits < (Nat.toDigits 10 value.natAbs).length then .error .valueError
      else .ok (encodeInt value)
  | _, _, .float value => .ok (runtime.text value).toList
  | _, _, .nonFinite value => .ok (encodeNonFinite value)
  | _, _, .str text => .ok (encodeText text)
  | 0, _, .list _ => .error .recursionError
  | 0, _, .dict _ => .error .recursionError
  | depth + 1, level, .list items => do
      return enclosed indent level '[' ']' (← items.mapM (encode runtime indent depth (level + 1)))
  | depth + 1, level, .dict entries => do
      return enclosed indent level '\x7b' '\x7d'
        (← entries.mapM (encodeEntry (encode runtime indent depth (level + 1))))

def byKey {α : Type} (entries : Dict String α) : Dict String α :=
  entries.insertionSort fun first second => first.1 ≤ second.1

def sortKeys : ℕ → Value → Value
  | depth + 1, .list items => .list (items.map (sortKeys depth))
  | depth + 1, .dict entries =>
      .dict (byKey (entries.map fun (key, value) => (key, sortKeys depth value)))
  | _, value => value

/-- Arguments of `json.dumps`. -/
structure Style where
  indent : Option ℕ := none
  sorted : Bool := false

/-- `json.dumps`. -/
def dumps (runtime : Runtime) (depth : ℕ) (style : Style) (value : Value) :
    Except Raised String :=
  (encode runtime style.indent depth 0
    (if style.sorted then sortKeys depth value else value)).map String.ofList

/-! ## Reading -/

/-- What reads an item at the front of a text and leaves the rest of it. -/
abbrev Reader (α : Type) := List Char → Except Raised (α × List Char)

/-- White space. -/
def isSpace (letter : Char) : Bool :=
  letter = ' ' || letter = '\t' || letter = '\n' || letter = '\r'

def skipSpace (chars : List Char) : List Char := chars.dropWhile isSpace

def hexValue (letter : Char) : Option ℕ :=
  if '0' ≤ letter ∧ letter ≤ '9' then some (letter.toNat - 48)
  else if 'a' ≤ letter ∧ letter ≤ 'f' then some (letter.toNat - 87)
  else if 'A' ≤ letter ∧ letter ≤ 'F' then some (letter.toNat - 55)
  else none

def readHex4 : List Char → Option (ℕ × List Char)
  | first :: second :: third :: fourth :: rest => do
      let first ← hexValue first
      let second ← hexValue second
      let third ← hexValue third
      let fourth ← hexValue fourth
      return (((first * 16 + second) * 16 + third) * 16 + fourth, rest)
  | _ => none

def isHighSurrogate (unit : ℕ) : Bool := 0xd800 ≤ unit && unit < 0xdc00

def isLowSurrogate (unit : ℕ) : Bool := 0xdc00 ≤ unit && unit < 0xe000

def readLowSurrogate : List Char → Option (ℕ × List Char)
  | '\\' :: 'u' :: rest => (readHex4 rest).filter fun read => isLowSurrogate read.1
  | _ => none

/-- The character of a unit that is read without a pair. -/
def loneUnit (unit : ℕ) : Char :=
  if isHighSurrogate unit || isLowSurrogate unit then '\ufffd' else Char.ofNat unit

/-- A character after the backslash. -/
def readEscape : List Char → Option (Char × List Char)
  | [] => none
  | letter :: rest =>
      if letter = 'u' then
        match readHex4 rest with
        | none => none
        | some (unit, rest) =>
            if isHighSurrogate unit then
              match readLowSurrogate rest with
              | some (low, rest) =>
                  some (Char.ofNat (0x10000 + (unit - 0xd800) * 0x400 + (low - 0xdc00)), rest)
              | none => some (loneUnit unit, rest)
            else some (loneUnit unit, rest)
      else if letter = '/' then some ('/', rest)
      else (shortEscapes.find? fun short => short.2 = letter).map fun short => (short.1, rest)

/-- The characters of a text up to its closing quote. -/
def readLetters : ℕ → List Char → Option (List Char × List Char)
  | 0, _ => none
  | _, [] => none
  | fuel + 1, letter :: rest =>
      if letter = '\x22' then some ([], rest)
      else if letter = '\\' then
        match readEscape rest with
        | none => none
        | some (letter, rest) => (readLetters fuel rest).map fun (letters, rest) =>
            (letter :: letters, rest)
      else if letter.toNat < 32 then none
      else (readLetters fuel rest).map fun (letters, rest) => (letter :: letters, rest)

/-- A text after its opening quote. -/
def readText : Reader String := fun chars =>
  match readLetters chars.length chars with
  | some (letters, rest) => .ok (String.ofList letters, rest)
  | none => .error .jsonDecodeError

/-- A number as it is written. -/
structure Numeral where
  negative : Bool
  whole : List Char
  fraction : List Char
  exponent : List Char

namespace Numeral

def chars (numeral : Numeral) : List Char :=
  (if numeral.negative then ['-'] else []) ++ numeral.whole ++ numeral.fraction ++ numeral.exponent

/-- Neither point nor exponent. -/
def isInteger (numeral : Numeral) : Bool := numeral.fraction.isEmpty && numeral.exponent.isEmpty

/-- What is written; a number too large for a float is infinite. -/
def value (runtime : Runtime) (numeral : Numeral) : Except Raised Value :=
  if numeral.isInteger then
    if maxStrDigits < numeral.whole.length then .error .valueError
    else
      let magnitude : ℕ := Nat.ofDigitChars 10 numeral.whole 0
      .ok (.int (if numeral.negative then -magnitude else magnitude))
  else
    match runtime.parseFloat (String.ofList numeral.chars) with
    | some value => .ok (.float value)
    | none => .ok (.nonFinite (if numeral.negative then .negativeInfinity else .infinity))

end Numeral

def digits (chars : List Char) : List Char := chars.takeWhile Char.isDigit

def afterDigits (chars : List Char) : List Char := chars.dropWhile Char.isDigit

def scanSign : List Char → Bool × List Char
  | '-' :: rest => (true, rest)
  | chars => (false, chars)

/-- A whole number; after a leading zero comes no digit. -/
def scanWhole (chars : List Char) : Option (List Char × List Char) :=
  match chars with
  | [] => none
  | letter :: rest =>
      if letter = '0' then some ([letter], rest)
      else if letter.isDigit then some (digits chars, afterDigits chars)
      else none

def scanFraction (chars : List Char) : List Char × List Char :=
  match chars with
  | [] => ([], [])
  | letter :: rest =>
      if letter = '.' ∧ digits rest ≠ [] then (letter :: digits rest, afterDigits rest)
      else ([], chars)

def scanPlusMinus : List Char → List Char × List Char
  | [] => ([], [])
  | letter :: rest =>
      if letter = '+' ∨ letter = '-' then ([letter], rest) else ([], letter :: rest)

def scanExponent (chars : List Char) : List Char × List Char :=
  match chars with
  | [] => ([], [])
  | letter :: rest =>
      let (sign, after) := scanPlusMinus rest
      if (letter = 'e' ∨ letter = 'E') ∧ digits after ≠ [] then
        (letter :: sign ++ digits after, afterDigits after)
      else ([], chars)

def scanNumeral (chars : List Char) : Option (Numeral × List Char) :=
  let (negative, unsigned) := scanSign chars
  match scanWhole unsigned with
  | none => none
  | some (whole, rest) =>
      let (fraction, rest) := scanFraction rest
      let (exponent, rest) := scanExponent rest
      some (⟨negative, whole, fraction, exponent⟩, rest)

def readNumber (runtime : Runtime) : Reader Value := fun chars =>
  match scanNumeral chars with
  | none => .error .jsonDecodeError
  | some (numeral, rest) => (numeral.value runtime).map fun value => (value, rest)

def words : List (String × Value) :=
  [("null", .none), ("true", .bool true), ("false", .bool false), ("NaN", .nonFinite .nan),
    ("Infinity", .nonFinite .infinity), ("-Infinity", .nonFinite .negativeInfinity)]

def readWord (chars : List Char) : Option (Value × List Char) :=
  (words.find? fun word => word.1.toList.isPrefixOf chars).map fun word =>
    (word.2, chars.drop word.1.length)

/-- Items that commas part, up to a closing bracket. -/
def readItems {α : Type} (item : Reader α) (closing : Char) : ℕ → Reader (List α)
  | 0 => fun _ => .error .jsonDecodeError
  | fuel + 1 => fun chars => do
      let (first, rest) ← item chars
      match skipSpace rest with
      | [] => .error .jsonDecodeError
      | letter :: rest =>
          if letter = closing then return ([first], rest)
          else if letter = ',' then
            let (others, rest) ← readItems item closing fuel (skipSpace rest)
            return (first :: others, rest)
          else .error .jsonDecodeError

/-- Items after an opening bracket. -/
def readEnclosed {α : Type} (item : Reader α) (closing : Char) : Reader (List α) := fun chars =>
  match skipSpace chars with
  | [] => .error .jsonDecodeError
  | letter :: rest =>
      if letter = closing then .ok ([], rest)
      else readItems item closing chars.length (letter :: rest)

/-- A key and its value. -/
def readEntry (item : Reader Value) : Reader (String × Value) := fun chars =>
  match chars with
  | [] => .error .jsonDecodeError
  | letter :: rest =>
      if letter = '\x22' then do
        let (key, rest) ← readText rest
        match skipSpace rest with
        | [] => .error .jsonDecodeError
        | letter :: rest =>
            if letter = ':' then do
              let (value, rest) ← item (skipSpace rest)
              return ((key, value), rest)
            else .error .jsonDecodeError
      else .error .jsonDecodeError

/-- A value, with what reads the values in it unless the interpreter gives up. -/
def readOnce (runtime : Runtime) (inner : Option (Reader Value)) : Reader Value := fun chars =>
  match chars with
  | [] => .error .jsonDecodeError
  | letter :: rest =>
      if letter = '\x22' then do
        let (text, rest) ← readText rest
        return (.str text, rest)
      else if letter = '[' then
        match inner with
        | none => .error .recursionError
        | some item => do
            let (items, rest) ← readEnclosed item ']' rest
            return (.list items, rest)
      else if letter = '\x7b' then
        match inner with
        | none => .error .recursionError
        | some item => do
            let (entries, rest) ← readEnclosed (readEntry item) '\x7d' rest
            -- a later entry replaces an earlier one with the same key
            let held := entries.foldl (fun held entry => Dict.set entry.1 entry.2 held) []
            return (.dict held, rest)
      else
        match readWord (letter :: rest) with
        | some read => .ok read
        | none => readNumber runtime (letter :: rest)

/-- A value, with so many levels left before the interpreter gives up. -/
def readValue (runtime : Runtime) : ℕ → Reader Value
  | 0 => readOnce runtime none
  | depth + 1 => readOnce runtime (some (readValue runtime depth))

/-- `json.loads`. -/
def loads (runtime : Runtime) (depth : ℕ) (text : String) : Except Raised Value := do
  let (value, rest) ← readValue runtime depth (skipSpace text.toList)
  if skipSpace rest = [] then return value else .error .jsonDecodeError

end Python.Json
