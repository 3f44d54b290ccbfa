import Mathlib.Data.List.TakeWhile
import TradingControl.Python.Json

/-!
# JSON round trips

What `json.dumps` writes, `json.loads` reads as the same value.  The argument follows the writer:
the text of every part starts with no white space, and its reader stops exactly where it ends.
-/

namespace Python.Json

/-! ## Texts -/

theorem hexValue_digitChar : ∀ digit < 16, hexValue (Nat.digitChar digit) = some digit := by
  decide

theorem readHex4_hex4 {unit : ℕ} (bound : unit < 0x10000) (rest : List Char) :
    readHex4 (hex4 unit ++ rest) = some (unit, rest) := by
  have value (number : ℕ) : hexValue (Nat.digitChar (number % 16)) = some (number % 16) :=
    hexValue_digitChar _ (Nat.mod_lt _ (by decide))
  have total : ((unit / 4096 % 16 * 16 + unit / 256 % 16) * 16 + unit / 16 % 16) * 16 + unit % 16 =
      unit := by
    omega
  simp only [hex4, List.cons_append, List.nil_append, readHex4, value, bind, Option.bind, pure,
    total]

theorem readEscape_short : ∀ short ∈ shortEscapes, ∀ rest,
    readEscape (short.2 :: rest) = some (short.1, rest) := by
  intro short member rest
  simp only [shortEscapes, List.mem_cons, List.not_mem_nil, or_false] at member
  rcases member with rfl | rfl | rfl | rfl | rfl | rfl | rfl <;> rfl

theorem not_surrogate (letter : Char) :
    isHighSurrogate letter.toNat = false ∧ isLowSurrogate letter.toNat = false := by
  have valid := letter.valid
  simp only [UInt32.isValidChar, Nat.isValidChar] at valid
  simp only [isHighSurrogate, isLowSurrogate, Char.toNat, Bool.and_eq_false_iff,
    decide_eq_false_iff_not]
  omega

theorem readEscape_unit {letter : Char} (short : letter.toNat < 0x10000) (rest : List Char) :
    readEscape ('u' :: hex4 letter.toNat ++ rest) = some (letter, rest) := by
  obtain ⟨high, low⟩ := not_surrogate letter
  simp only [List.cons_append, readEscape, if_true, readHex4_hex4 short, high, loneUnit, low,
    Bool.or_self, Bool.false_eq_true, if_false, Char.ofNat_toNat]

theorem readEscape_surrogates {high low : ℕ} (isHigh : isHighSurrogate high = true)
    (isLow : isLowSurrogate low = true) (rest : List Char) :
    readEscape ('u' :: hex4 high ++ '\\' :: 'u' :: hex4 low ++ rest) =
      some (Char.ofNat (0x10000 + (high - 0xd800) * 0x400 + (low - 0xdc00)), rest) := by
  have bounds : high < 0x10000 ∧ low < 0x10000 := by
    simp only [isHighSurrogate, isLowSurrogate, Bool.and_eq_true, decide_eq_true_eq] at isHigh isLow
    omega
  have first (tail : List Char) := readHex4_hex4 bounds.1 tail
  have second := readHex4_hex4 bounds.2 rest
  simp only [List.cons_append, List.append_assoc, readEscape, if_true, first, isHigh,
    readLowSurrogate, second, Option.filter, isLow]

/-- A character beyond the basic plane comes back from its pair of surrogates. -/
theorem readEscape_pair {letter : Char} (long : 0x10000 ≤ letter.toNat) (rest : List Char) :
    readEscape ('u' :: hex4 (0xd800 + (letter.toNat - 0x10000) / 0x400) ++
      '\\' :: 'u' :: hex4 (0xdc00 + (letter.toNat - 0x10000) % 0x400) ++ rest) =
      some (letter, rest) := by
  have bound : letter.toNat < 0x110000 := by
    have valid := letter.valid
    simp only [UInt32.isValidChar, Nat.isValidChar] at valid
    simp only [Char.toNat]
    omega
  have high : isHighSurrogate (0xd800 + (letter.toNat - 0x10000) / 0x400) = true := by
    simp only [isHighSurrogate, Bool.and_eq_true, decide_eq_true_eq]
    omega
  have low : isLowSurrogate (0xdc00 + (letter.toNat - 0x10000) % 0x400) = true := by
    simp only [isLowSurrogate, Bool.and_eq_true, decide_eq_true_eq]
    omega
  have joined : 0x10000 + (0xd800 + (letter.toNat - 0x10000) / 0x400 - 0xd800) * 0x400 +
      (0xdc00 + (letter.toNat - 0x10000) % 0x400 - 0xdc00) = letter.toNat := by
    omega
  rw [readEscape_surrogates high low, joined, Char.ofNat_toNat]

/-- A character is written as itself, or by what comes back from it. -/
theorem escape_cases (letter : Char) :
    (escape letter = [letter] ∧ letter ≠ '\x22' ∧ letter ≠ '\\' ∧ 32 ≤ letter.toNat) ∨
      ∃ text, escape letter = '\\' :: text ∧
        ∀ rest, readEscape (text ++ rest) = some (letter, rest) := by
  rw [escape]
  cases found : shortEscapes.lookup letter with
  | some short =>
      exact Or.inr ⟨[short], rfl, readEscape_short _ (Dict.mem_of_lookup found)⟩
  | none =>
      dsimp only
      split_ifs with printable short
      · refine Or.inl ⟨rfl, ?_, ?_, printable.1⟩ <;> rintro rfl <;> cases found
      · exact Or.inr ⟨_, rfl, readEscape_unit short⟩
      · exact Or.inr ⟨_, List.cons_append, readEscape_pair (by omega)⟩

theorem readLetters_escape (fuel : ℕ) (letter : Char) (rest : List Char) :
    readLetters (fuel + 1) (escape letter ++ rest) =
      (readLetters fuel rest).map fun read => (letter :: read.1, read.2) := by
  rcases escape_cases letter with ⟨same, quote, backslash, printable⟩ | ⟨text, same, reads⟩
  · rw [same, List.singleton_append, readLetters, if_neg quote, if_neg backslash,
      if_neg (by omega)]
  · rw [same, List.cons_append, readLetters, if_neg (by decide), if_pos rfl, reads rest]

theorem length_le_length_escape (letters : List Char) :
    letters.length ≤ (letters.flatMap escape).length := by
  induction letters with
  | nil => exact le_refl 0
  | cons letter rest induction =>
      have written : 1 ≤ (escape letter).length := by
        rcases escape_cases letter with ⟨same, -⟩ | ⟨text, same, -⟩ <;> rw [same] <;> simp
      rw [List.flatMap_cons, List.length_append, List.length_cons]
      omega

theorem readLetters_flatMap {fuel : ℕ} (letters rest : List Char) (enough : letters.length < fuel) :
    readLetters fuel (letters.flatMap escape ++ '\x22' :: rest) = some (letters, rest) := by
  induction letters generalizing fuel with
  | nil =>
      cases fuel with
      | zero => cases enough
      | succ fuel => rfl
  | cons letter letters induction =>
      cases fuel with
      | zero => cases enough
      | succ fuel =>
          rw [List.flatMap_cons, List.append_assoc, readLetters_escape,
            induction (Nat.lt_of_succ_lt_succ enough)]
          rfl

theorem readText_encodeText (text : String) (rest : List Char) :
    readText (text.toList.flatMap escape ++ '\x22' :: rest) = .ok (text, rest) := by
  have enough : text.toList.length <
      (text.toList.flatMap escape ++ '\x22' :: rest).length := by
    have least := length_le_length_escape text.toList
    rw [List.length_append, List.length_cons]
    omega
  rw [readText, readLetters_flatMap _ _ enough]
  exact congrArg (fun read => Except.ok (read, rest)) String.ofList_toList

/-! ## Numbers -/

/-- A character that could continue a number. -/
def continues (letter : Char) : Bool := letter.isDigit || letter ∈ ['.', 'e', 'E', '+', '-']

/-- The text does not continue a number before it. -/
def Ends (rest : List Char) : Prop := ∀ letter ∈ rest.head?, continues letter = false

theorem ends_cons {letter : Char} {rest : List Char} (other : continues letter = false) :
    Ends (letter :: rest) := by
  rintro first same
  rw [List.head?_cons, Option.mem_some] at same
  exact same ▸ other

theorem Ends.head {letter : Char} {rest : List Char} (ends : Ends (letter :: rest)) :
    letter.isDigit = false ∧ letter ≠ '.' ∧ letter ≠ 'e' ∧ letter ≠ 'E' ∧ letter ≠ '+' ∧
      letter ≠ '-' := by
  simpa [continues] using ends letter rfl

/-- A reader that stops within a text stops there when the text goes on. -/
theorem digits_append (chars : List Char) {rest : List Char} (ends : Ends rest) :
    digits (chars ++ rest) = digits chars ∧
      afterDigits (chars ++ rest) = afterDigits chars ++ rest := by
  induction chars with
  | nil =>
      cases rest with
      | nil => exact ⟨rfl, rfl⟩
      | cons letter rest =>
          simp [digits, afterDigits, ends.head]
  | cons letter chars induction =>
      simp only [digits, afterDigits] at induction ⊢
      cases digit : letter.isDigit <;> simp [digit, induction]

theorem scanSign_append {chars rest : List Char} (ends : Ends rest) :
    scanSign (chars ++ rest) = ((scanSign chars).1, (scanSign chars).2 ++ rest) := by
  cases chars with
  | nil =>
      cases rest with
      | nil => rfl
      | cons letter rest => simp [scanSign, ends.head]
  | cons letter chars =>
      by_cases minus : letter = '-'
      · subst minus
        rfl
      · simp [scanSign, minus]

theorem scanWhole_append {chars rest : List Char} (ends : Ends rest) :
    scanWhole (chars ++ rest) = (scanWhole chars).map fun read => (read.1, read.2 ++ rest) := by
  cases chars with
  | nil =>
      cases rest with
      | nil => rfl
      | cons letter rest =>
          have other : letter ≠ '0' := by
            rintro rfl
            exact absurd ends.head.1 (by decide)
          simp [scanWhole, ends.head, other]
  | cons letter chars =>
      have stops := digits_append (letter :: chars) ends
      rw [List.cons_append] at stops
      rw [List.cons_append, scanWhole, scanWhole]
      split_ifs <;> simp [stops]

theorem scanFraction_append {chars rest : List Char} (ends : Ends rest) :
    scanFraction (chars ++ rest) = ((scanFraction chars).1, (scanFraction chars).2 ++ rest) := by
  cases chars with
  | nil =>
      cases rest with
      | nil => rfl
      | cons letter rest => simp [scanFraction, ends.head]
  | cons letter chars =>
      obtain ⟨same, after⟩ := digits_append chars ends
      rw [List.cons_append, scanFraction, scanFraction, same, after]
      split_ifs <;> rfl

theorem scanPlusMinus_append {chars rest : List Char} (ends : Ends rest) :
    scanPlusMinus (chars ++ rest) = ((scanPlusMinus chars).1, (scanPlusMinus chars).2 ++ rest) := by
  cases chars with
  | nil =>
      cases rest with
      | nil => rfl
      | cons letter rest => simp [scanPlusMinus, ends.head]
  | cons letter chars =>
      rw [List.cons_append, scanPlusMinus, scanPlusMinus]
      split_ifs <;> rfl

theorem scanExponent_append {chars rest : List Char} (ends : Ends rest) :
    scanExponent (chars ++ rest) = ((scanExponent chars).1, (scanExponent chars).2 ++ rest) := by
  cases chars with
  | nil =>
      cases rest with
      | nil => rfl
      | cons letter rest => simp [scanExponent, ends.head]
  | cons letter chars =>
      obtain ⟨same, after⟩ := digits_append (scanPlusMinus chars).2 ends
      rw [List.cons_append, scanExponent, scanExponent, scanPlusMinus_append ends]
      dsimp only
      rw [same, after]
      split_ifs <;> rfl

theorem scanNumeral_append (chars : List Char) {rest : List Char} (ends : Ends rest) :
    scanNumeral (chars ++ rest) = (scanNumeral chars).map fun read => (read.1, read.2 ++ rest) := by
  simp only [scanNumeral]
  rw [scanSign_append ends]
  dsimp only
  rw [scanWhole_append ends]
  cases scanWhole (scanSign chars).2 with
  | none => rfl
  | some read =>
      dsimp only [Option.map_some]
      rw [scanFraction_append ends]
      dsimp only
      rw [scanExponent_append ends]

/-- What is scanned is the front of the text. -/
theorem digits_append_afterDigits (chars : List Char) : digits chars ++ afterDigits chars = chars :=
  List.takeWhile_append_dropWhile

theorem scanWhole_eq {chars whole rest : List Char}
    (scanned : scanWhole chars = some (whole, rest)) : whole ++ rest = chars := by
  simp only [scanWhole] at scanned
  split at scanned
  · cases scanned
  · split_ifs at scanned
    · cases scanned
      rfl
    · cases scanned
      exact digits_append_afterDigits _

theorem scanFraction_eq (chars : List Char) :
    (scanFraction chars).1 ++ (scanFraction chars).2 = chars := by
  simp only [scanFraction]
  split
  · rfl
  · split_ifs
    · exact congrArg (_ :: ·) (digits_append_afterDigits _)
    · rfl

theorem scanPlusMinus_eq (chars : List Char) :
    (scanPlusMinus chars).1 ++ (scanPlusMinus chars).2 = chars := by
  simp only [scanPlusMinus]
  split
  · rfl
  · split_ifs <;> rfl

theorem scanExponent_eq (chars : List Char) :
    (scanExponent chars).1 ++ (scanExponent chars).2 = chars := by
  unfold scanExponent
  split
  · rfl
  · next letter rest =>
      dsimp only
      split_ifs
      · dsimp only
        rw [List.append_assoc, digits_append_afterDigits, List.cons_append, scanPlusMinus_eq]
      · rfl

theorem scanSign_eq (chars : List Char) :
    (if (scanSign chars).1 then ['-'] else []) ++ (scanSign chars).2 = chars := by
  simp only [scanSign]
  split <;> rfl

theorem scanNumeral_eq {chars rest : List Char} {numeral : Numeral}
    (scanned : scanNumeral chars = some (numeral, rest)) : numeral.chars ++ rest = chars := by
  rw [scanNumeral] at scanned
  dsimp only at scanned
  cases found : scanWhole (scanSign chars).2 with
  | none => rw [found] at scanned; cases scanned
  | some read =>
      obtain ⟨whole, after⟩ := read
      rw [found] at scanned
      cases scanned
      dsimp only [Numeral.chars]
      rw [List.append_assoc, scanExponent_eq, List.append_assoc, scanFraction_eq, List.append_assoc,
        scanWhole_eq found, scanSign_eq]

/-- A number above zero has no leading zero. -/
theorem head?_toDigits_ne {number : ℕ} (positive : 0 < number) :
    (Nat.toDigits 10 number).head? ≠ some '0' := by
  have single : ∀ digit < 10, 0 < digit → Nat.digitChar digit ≠ '0' := by decide
  induction number using Nat.strong_induction_on with
  | _ number induction =>
      by_cases small : number < 10
      · rw [Nat.toDigits_of_lt_base small]
        simpa using single number small positive
      · have leading := induction (number / 10) (by omega) (by omega)
        rw [Nat.toDigits_of_base_le (by decide) (by omega), List.head?_append]
        cases text : Nat.toDigits 10 (number / 10) with
        | nil => exact absurd text Nat.toDigits_ne_nil
        | cons letter rest =>
            rw [text] at leading
            exact leading

theorem isDigit_of_toDigits {number : ℕ} {letter : Char}
    (member : letter ∈ Nat.toDigits 10 number) : letter.isDigit = true :=
  Nat.isDigit_of_mem_toDigits (by decide) (by decide) member

theorem digits_toDigits (number : ℕ) :
    digits (Nat.toDigits 10 number) = Nat.toDigits 10 number ∧
      afterDigits (Nat.toDigits 10 number) = [] := by
  have all : ∀ letter ∈ Nat.toDigits 10 number, letter.isDigit = true :=
    fun _ => isDigit_of_toDigits
  exact ⟨List.takeWhile_eq_self_iff.mpr all, List.dropWhile_eq_nil_iff.mpr all⟩

theorem scanWhole_toDigits (number : ℕ) :
    scanWhole (Nat.toDigits 10 number) = some (Nat.toDigits 10 number, []) := by
  rcases Nat.eq_zero_or_pos number with rfl | positive
  · rfl
  · have lead := head?_toDigits_ne positive
    obtain ⟨same, after⟩ := digits_toDigits number
    cases text : Nat.toDigits 10 number with
    | nil => exact absurd text Nat.toDigits_ne_nil
    | cons letter rest =>
        have digit : letter.isDigit = true :=
          isDigit_of_toDigits (by rw [text]; exact List.mem_cons_self)
        rw [text] at lead same after
        rw [scanWhole, if_neg (fun zero => lead (by rw [zero]; rfl)), if_pos digit, same, after]

theorem scanNumeral_encodeInt (value : ℤ) :
    scanNumeral (encodeInt value) =
      some (⟨decide (value < 0), Nat.toDigits 10 value.natAbs, [], []⟩, []) := by
  have sign : scanSign (encodeInt value) = (decide (value < 0), Nat.toDigits 10 value.natAbs) := by
    rw [encodeInt]
    by_cases negative : value < 0
    · simp [negative, scanSign]
    · rw [if_neg negative, List.nil_append]
      cases text : Nat.toDigits 10 value.natAbs with
      | nil => exact absurd text Nat.toDigits_ne_nil
      | cons letter rest =>
          have digit : letter.isDigit = true :=
            isDigit_of_toDigits (by rw [text]; exact List.mem_cons_self)
          have other : letter ≠ '-' := by
            rintro rfl
            exact absurd digit (by decide)
          simp [scanSign, other, negative]
  rw [scanNumeral]
  rw [sign]
  dsimp only
  rw [scanWhole_toDigits]
  rfl

/-- The text of the float is that of a number with a point or an exponent, and `float` finds the
same float in it. -/
def FloatText (runtime : Runtime) (x : ℚ) : Prop :=
  ((scanNumeral (runtime.text x).toList).any fun read =>
    !read.1.isInteger && read.2.isEmpty) = true ∧ runtime.parseFloat (runtime.text x) = some x

instance (runtime : Runtime) (x : ℚ) : Decidable (FloatText runtime x) :=
  inferInstanceAs (Decidable (_ ∧ _))

theorem FloatText.scanned {runtime : Runtime} {x : ℚ} (prints : FloatText runtime x) :
    ∃ numeral, scanNumeral (runtime.text x).toList = some (numeral, []) ∧
      numeral.isInteger = false := by
  have whole := prints.1
  cases scanned : scanNumeral (runtime.text x).toList with
  | none => rw [scanned] at whole; cases whole
  | some read =>
      obtain ⟨numeral, rest⟩ := read
      rw [scanned] at whole
      simp only [Option.any_some, Bool.and_eq_true, Bool.not_eq_true', List.isEmpty_iff] at whole
      obtain ⟨isFloat, rfl⟩ := whole
      exact ⟨numeral, rfl, isFloat⟩

theorem readNumber_encodeInt (runtime : Runtime) {value : ℤ}
    (short : (Nat.toDigits 10 value.natAbs).length ≤ maxStrDigits) {rest : List Char}
    (ends : Ends rest) : readNumber runtime (encodeInt value ++ rest) = .ok (.int value, rest) := by
  have magnitude : (if value < 0 then -(value.natAbs : ℤ) else value.natAbs) = value := by
    split_ifs <;> omega
  rw [readNumber, scanNumeral_append _ ends, scanNumeral_encodeInt]
  simp only [Option.map_some, Numeral.value, Numeral.isInteger, List.isEmpty_nil, Bool.and_self,
    if_true, Nat.not_lt.mpr short, if_false, Nat.ofDigitChars_ten_toDigits, decide_eq_true_eq,
    magnitude]
  rfl

theorem readNumber_text {runtime : Runtime} {x : ℚ} (prints : FloatText runtime x)
    {rest : List Char} (ends : Ends rest) :
    readNumber runtime ((runtime.text x).toList ++ rest) = .ok (.float x, rest) := by
  obtain ⟨numeral, scanned, isFloat⟩ := prints.scanned
  have whole := scanNumeral_eq scanned
  rw [List.append_nil] at whole
  rw [readNumber, scanNumeral_append _ ends, scanned]
  simp [Numeral.value, isFloat, whole, prints.2, Except.map]

/-! ## Items -/

/-- The text of an item starts with no white space, and no bracket closes there. -/
def Starts (text : List Char) : Prop :=
  ∃ letter rest, text = letter :: rest ∧ isSpace letter = false ∧ letter ≠ ']' ∧ letter ≠ '\x7d'

/-- The reader reads the value from the text, whatever follows that continues no number. -/
def Reads {α : Type} (reader : Reader α) (text : List Char) (value : α) : Prop :=
  ∀ rest, Ends rest → reader (text ++ rest) = .ok (value, rest)

theorem skipSpace_of_starts {text : List Char} (starts : Starts text) (rest : List Char) :
    skipSpace (text ++ rest) = text ++ rest := by
  obtain ⟨letter, tail, rfl, other, -⟩ := starts
  simp [skipSpace, other]

theorem skipSpace_cons {letter : Char} (other : isSpace letter = false) (rest : List Char) :
    skipSpace (letter :: rest) = letter :: rest := by
  simp [skipSpace, other]

theorem skipSpace_lineBreak (indent : Option ℕ) (level : ℕ) (rest : List Char) :
    skipSpace (lineBreak indent level ++ rest) = skipSpace rest := by
  cases indent with
  | none => rfl
  | some width =>
      have blanks (count : ℕ) : skipSpace (List.replicate count ' ' ++ rest) = skipSpace rest := by
        induction count with
        | zero => rfl
        | succ count induction => exact induction
      exact blanks _

theorem ends_lineBreak (indent : Option ℕ) (level : ℕ) {rest : List Char} (ends : Ends rest) :
    Ends (lineBreak indent level ++ rest) := by
  cases indent with
  | none => exact ends
  | some width => exact ends_cons (by decide)

theorem separator_cases (indent : Option ℕ) (level : ℕ) :
    ∃ blanks, separator indent level = ',' :: blanks ∧
      ∀ rest, skipSpace (blanks ++ rest) = skipSpace rest := by
  cases indent with
  | none => exact ⟨[' '], rfl, fun rest => rfl⟩
  | some width => exact ⟨_, rfl, skipSpace_lineBreak (some width) level⟩

section

variable {α : Type} {item : Reader α} {closing : Char} (indent : Option ℕ) (level : ℕ)

theorem readItems_spec {fuel : ℕ} {first : List Char} {value : α} {others : List (List Char)}
    {values : List α} (rest : List Char) (other : isSpace closing = false ∧
      continues closing = false ∧ closing ≠ ',')
    (reads : Reads item first value)
    (all : List.Forall₂ (fun text value => Starts text ∧ Reads item text value) others values)
    (enough : others.length < fuel) :
    readItems item closing fuel
      (first ++ (others.flatMap (separator indent (level + 1) ++ ·) ++
        (lineBreak indent level ++ closing :: rest))) = .ok (value :: values, rest) := by
  obtain ⟨notSpace, notContinues, notComma⟩ := other
  induction all generalizing fuel first value with
  | nil =>
      cases fuel with
      | zero => cases enough
      | succ fuel =>
          rw [List.flatMap_nil, List.nil_append, readItems]
          dsimp only
          rw [reads _ (ends_lineBreak indent level (ends_cons notContinues))]
          dsimp only [bind, Except.bind]
          rw [skipSpace_lineBreak, skipSpace_cons notSpace]
          dsimp only
          rw [if_pos rfl]
          rfl
  | @cons second value' others values' head tail induction =>
      cases fuel with
      | zero => cases enough
      | succ fuel =>
          obtain ⟨blanks, same, skips⟩ := separator_cases indent (level + 1)
          have next := induction head.2 (Nat.lt_of_succ_lt_succ enough)
          rw [List.flatMap_cons, same, List.cons_append, List.cons_append, List.cons_append,
            readItems]
          dsimp only
          rw [reads _ (ends_cons (by decide))]
          dsimp only [bind, Except.bind]
          rw [skipSpace_cons (by decide)]
          dsimp only
          rw [if_neg (Ne.symm notComma), if_pos rfl, List.append_assoc, List.append_assoc, skips,
            skipSpace_of_starts head.1]
          rw [same] at next
          rw [next]
          rfl

theorem length_le_length_flatMap (texts : List (List Char)) :
    texts.length ≤ (texts.flatMap (separator indent level ++ ·)).length := by
  obtain ⟨blanks, same, -⟩ := separator_cases indent level
  induction texts with
  | nil => exact le_refl 0
  | cons text texts induction =>
      rw [List.flatMap_cons, same, List.cons_append, List.cons_append, List.length_cons,
        List.length_cons, List.length_append, ← same]
      omega

theorem readEnclosed_spec (opening : Char) {texts : List (List Char)} {values : List α}
    (other : isSpace closing = false ∧ continues closing = false ∧ closing ≠ ',')
    (bracket : closing = ']' ∨ closing = '\x7d')
    (all : List.Forall₂ (fun text value => Starts text ∧ Reads item text value) texts values) :
    ∃ inner, enclosed indent level opening closing texts = opening :: inner ∧
      Reads (readEnclosed item closing) inner values := by
  cases all with
  | nil =>
      refine ⟨[closing], rfl, fun rest _ => ?_⟩
      rw [List.singleton_append, readEnclosed, skipSpace_cons other.1]
      exact if_pos rfl
  | @cons first value others values head tail =>
      obtain ⟨letter, after, same, notSpace, notList, notDict⟩ := head.1
      have apart : letter ≠ closing := by
        rcases bracket with rfl | rfl
        · exact notList
        · exact notDict
      refine ⟨lineBreak indent (level + 1) ++ (first ++
        (others.flatMap (separator indent (level + 1) ++ ·) ++
          (lineBreak indent level ++ [closing]))), by simp [enclosed], fun rest _ => ?_⟩
      have enough : others.length < (lineBreak indent (level + 1) ++ (first ++
          (others.flatMap (separator indent (level + 1) ++ ·) ++
            (lineBreak indent level ++ closing :: rest)))).length := by
        have least := length_le_length_flatMap indent (level + 1) others
        simp only [List.length_append, List.length_cons]
        omega
      have items := readItems_spec indent level rest other head.2 tail enough
      simp only [List.append_assoc, List.singleton_append]
      rw [readEnclosed, skipSpace_lineBreak, skipSpace_of_starts head.1]
      generalize (lineBreak indent (level + 1) ++ _).length = fuel at items ⊢
      rw [same, List.cons_append] at items ⊢
      exact (if_neg apart).trans items

end

theorem readEntry_spec {item : Reader Value} {text : List Char} {value : Value} (key : String)
    (starts : Starts text) (reads : Reads item text value) :
    Starts (encodeText key ++ [':', ' '] ++ text) ∧
      Reads (readEntry item) (encodeText key ++ [':', ' '] ++ text) (key, value) := by
  refine ⟨⟨_, _, rfl, by decide, by decide, by decide⟩, fun rest ends => ?_⟩
  have blank : skipSpace (' ' :: (text ++ rest)) = text ++ rest :=
    skipSpace_of_starts starts rest
  simp only [encodeText, List.cons_append, List.append_assoc, List.nil_append]
  rw [readEntry]
  dsimp only
  rw [if_pos rfl, readText_encodeText]
  dsimp only [bind, Except.bind]
  rw [skipSpace_cons (by decide)]
  dsimp only
  rw [if_pos rfl, blank, reads rest ends]
  rfl

/-! ## Values -/

/-- Setting entries one after the other keeps them when their keys are distinct. -/
theorem foldl_set {entries : Dict String Value} (held : Dict String Value)
    (distinct : (Dict.keys (held ++ entries)).Nodup) :
    entries.foldl (fun held entry => Dict.set entry.1 entry.2 held) held = held ++ entries := by
  induction entries generalizing held with
  | nil => simp
  | cons entry entries induction =>
      have absent : entry.1 ∉ Dict.keys held := by
        rw [Dict.keys] at distinct ⊢
        rw [List.map_append, List.map_cons, List.nodup_append] at distinct
        exact fun member => distinct.2.2 _ member _ List.mem_cons_self rfl
      rw [List.foldl_cons, Dict.set_of_not_mem _ absent, induction]
      · simp
      · simpa using distinct

theorem scanNumeral_word : ∀ word ∈ words, ∀ rest, scanNumeral (word.1.toList ++ rest) = none := by
  intro word member rest
  simp only [words, List.mem_cons, List.not_mem_nil, or_false] at member
  rcases member with rfl | rfl | rfl | rfl | rfl | rfl <;> rfl

theorem readWord_of_scanNumeral {chars : List Char} {read : Numeral × List Char}
    (scanned : scanNumeral chars = some read) : readWord chars = none := by
  rw [readWord, Option.map_eq_none_iff, List.find?_eq_none]
  intro word member found
  obtain ⟨rest, rfl⟩ := List.isPrefixOf_iff_prefix.mp found
  rw [scanNumeral_word word member] at scanned
  cases scanned

/-- A number starts with a minus or a digit. -/
theorem lead_of_scanNumeral {letter : Char} {rest : List Char} {read : Numeral × List Char}
    (scanned : scanNumeral (letter :: rest) = some read) :
    letter = '-' ∨ letter.isDigit = true := by
  by_contra neither
  rw [not_or] at neither
  have zero : letter ≠ '0' := by
    rintro rfl
    exact neither.2 (by decide)
  simp [scanNumeral, scanSign, scanWhole, neither, zero] at scanned

theorem starts_of_scanNumeral {chars : List Char} {read : Numeral × List Char}
    (scanned : scanNumeral chars = some read) :
    ∃ letter rest, chars = letter :: rest ∧ isSpace letter = false ∧
      ∀ other ∈ ['\x22', '[', ']', '\x7b', '\x7d'], letter ≠ other := by
  cases chars with
  | nil => cases scanned
  | cons letter rest =>
      have lead := lead_of_scanNumeral scanned
      refine ⟨letter, rest, rfl, ?_, ?_⟩
      · rcases lead with rfl | digit
        · decide
        · rw [isSpace]
          simp only [Bool.or_eq_false_iff, decide_eq_false_iff_not]
          refine ⟨⟨⟨?_, ?_⟩, ?_⟩, ?_⟩ <;> rintro rfl <;> exact absurd digit (by decide)
      · rintro other member rfl
        simp only [List.mem_cons, List.not_mem_nil, or_false] at member
        rcases member with rfl | rfl | rfl | rfl | rfl <;>
          exact absurd lead (by decide)

section

variable {runtime : Runtime} {inner : Option (Reader Value)}

theorem readOnce_word : ∀ word ∈ words, Starts word.1.toList ∧
    Reads (readOnce runtime inner) word.1.toList word.2 := by
  intro word member
  simp only [words, List.mem_cons, List.not_mem_nil, or_false] at member
  rcases member with rfl | rfl | rfl | rfl | rfl | rfl <;>
    exact ⟨⟨_, _, rfl, by decide, by decide, by decide⟩, fun rest _ => rfl⟩

theorem readOnce_number {text : List Char} {value : Value} {numeral : Numeral}
    (scanned : scanNumeral text = some (numeral, []))
    (reads : Reads (readNumber runtime) text value) :
    Starts text ∧ Reads (readOnce runtime inner) text value := by
  obtain ⟨letter, tail, same, notSpace, apart⟩ := starts_of_scanNumeral scanned
  refine ⟨⟨letter, tail, same, notSpace, apart _ (by simp), apart _ (by simp)⟩,
    fun rest ends => ?_⟩
  have whole := scanNumeral_append text ends
  rw [scanned] at whole
  have number := reads rest ends
  subst same
  rw [List.cons_append] at whole number ⊢
  unfold readOnce
  dsimp only
  rw [if_neg (apart _ (by simp)), if_neg (apart _ (by simp)), if_neg (apart _ (by simp)),
    readWord_of_scanNumeral whole]
  exact number

theorem readOnce_text (text : String) :
    Starts (encodeText text) ∧ Reads (readOnce runtime inner) (encodeText text) (.str text) := by
  refine ⟨⟨_, _, rfl, by decide, by decide, by decide⟩, fun rest _ => ?_⟩
  simp only [encodeText, List.cons_append, List.append_assoc, List.nil_append]
  unfold readOnce
  dsimp only
  rw [if_pos rfl, readText_encodeText]
  rfl

theorem readOnce_list {item : Reader Value} {inner : List Char} {items : List Value}
    (reads : Reads (readEnclosed item ']') inner items) :
    Reads (readOnce runtime (some item)) ('[' :: inner) (.list items) := by
  intro rest ends
  rw [List.cons_append]
  rw [readOnce]
  dsimp only
  rw [if_neg (by decide), if_pos rfl, reads rest ends]
  rfl

theorem readOnce_dict {item : Reader Value} {inner : List Char} {entries : Dict String Value}
    (distinct : (Dict.keys entries).Nodup)
    (reads : Reads (readEnclosed (readEntry item) '\x7d') inner entries) :
    Reads (readOnce runtime (some item)) ('\x7b' :: inner) (.dict entries) := by
  intro rest ends
  have kept := foldl_set [] distinct
  rw [List.nil_append] at kept
  rw [List.cons_append]
  rw [readOnce]
  dsimp only
  rw [if_neg (by decide), if_neg (by decide), if_pos rfl, reads rest ends]
  dsimp only [bind, Except.bind, pure, Except.pure]
  rw [kept]

end

/-- A value whose floats have texts of their own and whose dictionaries have distinct keys. -/
inductive Faithful (runtime : Runtime) : Value → Prop where
  | none : Faithful runtime .none
  | bool (value : Bool) : Faithful runtime (.bool value)
  | int (value : ℤ) : Faithful runtime (.int value)
  | float (value : ℚ) (prints : FloatText runtime value) : Faithful runtime (.float value)
  | nonFinite (value : NonFinite) : Faithful runtime (.nonFinite value)
  | str (text : String) : Faithful runtime (.str text)
  | list (items : List Value) (all : ∀ item ∈ items, Faithful runtime item) :
      Faithful runtime (.list items)
  | dict (entries : Dict String Value) (distinct : (Dict.keys entries).Nodup)
      (all : ∀ entry ∈ entries, Faithful runtime entry.2) : Faithful runtime (.dict entries)

theorem forall₂_of_mapM {α β : Type} {convert : α → Except Raised β} {items : List α}
    {results : List β} (mapped : items.mapM convert = .ok results) :
    List.Forall₂ (fun result item => item ∈ items ∧ convert item = .ok result) results items := by
  induction items generalizing results with
  | nil =>
      rw [List.mapM_nil] at mapped
      cases mapped
      exact List.Forall₂.nil
  | cons item items induction =>
      rw [List.mapM_cons] at mapped
      cases first : convert item with
      | error raised => rw [first] at mapped; cases mapped
      | ok result =>
          cases others : items.mapM convert with
          | error raised => rw [first, others] at mapped; cases mapped
          | ok rest =>
              rw [first, others] at mapped
              cases mapped
              exact List.Forall₂.cons ⟨List.mem_cons_self, first⟩ ((induction others).imp
                fun _ _ both => ⟨List.mem_cons_of_mem _ both.1, both.2⟩)

theorem encodeEntry_eq_ok {convert : Value → Except Raised (List Char)} {entry : String × Value}
    {text : List Char} (written : encodeEntry convert entry = .ok text) :
    ∃ value, convert entry.2 = .ok value ∧ encodeText entry.1 ++ [':', ' '] ++ value = text := by
  rw [encodeEntry] at written
  cases converted : convert entry.2 with
  | error raised => rw [converted] at written; cases written
  | ok value =>
      rw [converted] at written
      exact ⟨value, rfl, Except.ok.inj written⟩

theorem scalar_spec {runtime : Runtime} {indent : Option ℕ} {depth level : ℕ} {value : Value}
    {text : List Char} (written : encode runtime indent depth level value = .ok text)
    (faithful : Faithful runtime value) (noList : ∀ items, value ≠ .list items)
    (noDict : ∀ entries, value ≠ .dict entries) :
    Starts text ∧ Reads (readValue runtime depth) text value := by
  obtain ⟨inner, same⟩ : ∃ inner, readValue runtime depth = readOnce runtime inner := by
    cases depth <;> exact ⟨_, rfl⟩
  have word : ∀ word ∈ words, word.1.toList = text → word.2 = value →
      Starts text ∧ Reads (readValue runtime depth) text value := by
    rintro word member rfl rfl
    exact same ▸ readOnce_word word member
  cases faithful with
  | none =>
      rw [encode] at written
      exact word ("null", .none) (by simp [words]) (Except.ok.inj written) rfl
  | bool value =>
      rw [encode] at written
      cases value with
      | false => exact word ("false", .bool false) (by simp [words]) (Except.ok.inj written) rfl
      | true => exact word ("true", .bool true) (by simp [words]) (Except.ok.inj written) rfl
  | nonFinite value =>
      rw [encode] at written
      cases value with
      | nan => exact word ("NaN", _) (by simp [words]) (Except.ok.inj written) rfl
      | infinity => exact word ("Infinity", _) (by simp [words]) (Except.ok.inj written) rfl
      | negativeInfinity =>
          exact word ("-Infinity", _) (by simp [words]) (Except.ok.inj written) rfl
  | int value =>
      rw [encode] at written
      split_ifs at written with long
      cases written
      rw [same]
      exact readOnce_number (scanNumeral_encodeInt value) fun rest ends =>
        readNumber_encodeInt runtime (Nat.not_lt.mp long) ends
  | float value prints =>
      rw [encode] at written
      cases written
      obtain ⟨numeral, scanned, -⟩ := prints.scanned
      rw [same]
      exact readOnce_number scanned fun rest ends => readNumber_text prints ends
  | str text =>
      rw [encode] at written
      cases written
      rw [same]
      exact readOnce_text text
  | list items => exact absurd rfl (noList items)
  | dict entries => exact absurd rfl (noDict entries)

theorem encode_spec {runtime : Runtime} (indent : Option ℕ) {depth level : ℕ} {value : Value}
    {text : List Char} (written : encode runtime indent depth level value = .ok text)
    (faithful : Faithful runtime value) :
    Starts text ∧ Reads (readValue runtime depth) text value := by
  induction depth generalizing level value text with
  | zero =>
      cases value with
      | list items => cases written
      | dict entries => cases written
      | _ => exact scalar_spec written faithful (by simp) (by simp)
  | succ depth induction =>
      cases value with
      | list items =>
          rw [encode] at written
          cases mapped : items.mapM (encode runtime indent depth (level + 1)) with
          | error raised => rw [mapped] at written; cases written
          | ok texts =>
              rw [mapped] at written
              cases written
              cases faithful with
              | list items all =>
                  have every := (forall₂_of_mapM mapped).imp fun text item both =>
                    induction both.2 (all item both.1)
                  obtain ⟨inner, shape, reads⟩ := readEnclosed_spec indent level '['
                    ⟨by decide, by decide, by decide⟩ (Or.inl rfl) every
                  rw [shape]
                  exact ⟨⟨_, _, rfl, by decide, by decide, by decide⟩, readOnce_list reads⟩
      | dict entries =>
          rw [encode] at written
          cases mapped : entries.mapM (encodeEntry (encode runtime indent depth (level + 1))) with
          | error raised => rw [mapped] at written; cases written
          | ok texts =>
              rw [mapped] at written
              cases written
              cases faithful with
              | dict entries distinct all =>
                  have every : List.Forall₂ (fun text entry => Starts text ∧
                      Reads (readEntry (readValue runtime depth)) text entry) texts entries := by
                    refine (forall₂_of_mapM mapped).imp fun text entry both => ?_
                    obtain ⟨value, written, rfl⟩ := encodeEntry_eq_ok both.2
                    obtain ⟨starts, reads⟩ := induction written (all entry both.1)
                    exact readEntry_spec entry.1 starts reads
                  obtain ⟨inner, shape, reads⟩ := readEnclosed_spec indent level '\x7b'
                    ⟨by decide, by decide, by decide⟩ (Or.inr rfl) every
                  rw [shape]
                  exact ⟨⟨_, _, rfl, by decide, by decide, by decide⟩, readOnce_dict distinct reads⟩
      | _ => exact scalar_spec written faithful (by simp) (by simp)

theorem skipSpace_eq_nil {chars : List Char} (blank : ∀ letter ∈ chars, isSpace letter = true) :
    skipSpace chars = [] :=
  List.dropWhile_eq_nil_iff.mpr blank

/-- What is written is read as the same value, with white space after it. -/
theorem loads_append {runtime : Runtime} (indent : Option ℕ) {depth : ℕ} {value : Value}
    {text : List Char} (written : encode runtime indent depth 0 value = .ok text)
    (faithful : Faithful runtime value) {blank : List Char}
    (blanks : ∀ letter ∈ blank, isSpace letter = true) :
    loads runtime depth (String.ofList (text ++ blank)) = .ok value := by
  obtain ⟨starts, reads⟩ := encode_spec indent written faithful
  have ends : Ends blank := by
    intro letter first
    have space := blanks letter (List.mem_of_mem_head? first)
    rw [isSpace] at space
    simp only [Bool.or_eq_true, decide_eq_true_eq] at space
    rcases space with ((rfl | rfl) | rfl) | rfl <;> decide
  rw [loads, String.toList_ofList, skipSpace_of_starts starts, reads blank ends]
  dsimp only [bind, Except.bind]
  rw [if_pos (skipSpace_eq_nil blanks)]
  rfl

/-! ## Sorted keys -/

theorem byKey_perm {α : Type} (entries : Dict String α) : List.Perm (byKey entries) entries :=
  List.perm_insertionSort _ entries

theorem keys_byKey {entries : Dict String Value} (distinct : (Dict.keys entries).Nodup) :
    (Dict.keys (byKey entries)).Nodup :=
  ((byKey_perm entries).map Prod.fst).nodup_iff.mpr distinct

/-- Sorting changes the order of the entries alone. -/
theorem lookup_byKey {entries : Dict String Value} (distinct : (Dict.keys entries).Nodup)
    (key : String) : (byKey entries).lookup key = entries.lookup key := by
  have perm := byKey_perm entries
  apply Option.ext
  intro value
  constructor
  · intro found
    exact Dict.lookup_of_mem distinct (perm.mem_iff.mp (Dict.mem_of_lookup found))
  · intro found
    exact Dict.lookup_of_mem (keys_byKey distinct) (perm.mem_iff.mpr (Dict.mem_of_lookup found))

def sortedEntries (depth : ℕ) (entries : Dict String Value) : Dict String Value :=
  byKey (entries.map fun (key, value) => (key, sortKeys depth value))

theorem sortKeys_dict (depth : ℕ) (entries : Dict String Value) :
    sortKeys (depth + 1) (.dict entries) = .dict (sortedEntries depth entries) := rfl

@[simp] theorem sortKeys_float (depth : ℕ) (x : ℚ) : sortKeys depth (.float x) = .float x := by
  cases depth <;> rfl

theorem keys_map (convert : Value → Value) (entries : Dict String Value) :
    Dict.keys (entries.map fun (key, value) => (key, convert value)) = Dict.keys entries := by
  simp [Dict.keys, Function.comp_def]

theorem lookup_sortedEntries (depth : ℕ) {entries : Dict String Value}
    (distinct : (Dict.keys entries).Nodup) (key : String) :
    (sortedEntries depth entries).lookup key = (entries.lookup key).map (sortKeys depth) := by
  rw [sortedEntries, lookup_byKey (by rwa [keys_map]), Dict.lookup_map_value]

theorem faithful_sortKeys {runtime : Runtime} (depth : ℕ) {value : Value}
    (faithful : Faithful runtime value) : Faithful runtime (sortKeys depth value) := by
  induction depth generalizing value with
  | zero => cases value <;> exact faithful
  | succ depth induction =>
      cases faithful with
      | list items all =>
          refine .list _ fun item member => ?_
          obtain ⟨original, held, rfl⟩ := List.mem_map.mp member
          exact induction (all original held)
      | dict entries distinct all =>
          refine .dict _ (keys_byKey (by rwa [keys_map])) fun entry member => ?_
          obtain ⟨original, held, rfl⟩ := List.mem_map.mp ((byKey_perm _).mem_iff.mp member)
          exact induction (all original held)
      | none => exact .none
      | bool value => exact .bool value
      | int value => exact .int value
      | float value prints => exact .float value prints
      | nonFinite value => exact .nonFinite value
      | str text => exact .str text

/-- `json.loads` takes back what `json.dumps` writes, up to the order of keys. -/
theorem loads_dumps {runtime : Runtime} {depth : ℕ} {style : Style} {value : Value} {text : String}
    (written : dumps runtime depth style value = .ok text) (faithful : Faithful runtime value)
    {blank : String} (blanks : ∀ letter ∈ blank.toList, isSpace letter = true) :
    loads runtime depth (text ++ blank) =
      .ok (if style.sorted then sortKeys depth value else value) := by
  rw [dumps] at written
  obtain ⟨chars, encoded, rfl⟩ : ∃ chars, encode runtime style.indent depth 0
      (if style.sorted then sortKeys depth value else value) = .ok chars ∧
      String.ofList chars = text := by
    cases encoded : encode runtime style.indent depth 0
        (if style.sorted then sortKeys depth value else value) with
    | error raised => rw [encoded] at written; cases written
    | ok chars => rw [encoded] at written; exact ⟨chars, rfl, Except.ok.inj written⟩
  have same : String.ofList chars ++ blank = String.ofList (chars ++ blank.toList) := by
    rw [String.ofList_append, String.ofList_toList]
  rw [same]
  refine loads_append style.indent encoded ?_ blanks
  split_ifs
  · exact faithful_sortKeys depth faithful
  · exact faithful

/-! ## Values that can be written -/

/-- The value nests no deeper than the interpreter goes and its integers are not too long. -/
def Fits : ℕ → Value → Prop
  | _, .int value => (Nat.toDigits 10 value.natAbs).length ≤ maxStrDigits
  | 0, .list _ => False
  | 0, .dict _ => False
  | depth + 1, .list items => ∀ item ∈ items, Fits depth item
  | depth + 1, .dict entries => ∀ entry ∈ entries, Fits depth entry.2
  | _, _ => True

theorem mapM_isOk_iff {α β : Type} (convert : α → Except Raised β) (items : List α) :
    (items.mapM convert).isOk = true ↔ ∀ item ∈ items, (convert item).isOk = true := by
  induction items with
  | nil => simp [List.mapM_nil, pure, Except.pure, Except.isOk, Except.toBool]
  | cons item items induction =>
      rw [List.mapM_cons, List.forall_mem_cons, ← induction]
      cases convert item <;> cases items.mapM convert <;>
        simp [bind, Except.bind, pure, Except.pure, Except.isOk, Except.toBool]

@[simp] theorem isOk_bind_pure {α β : Type} (first : Except Raised α) (next : α → β) :
    (first >>= fun result => pure (next result)).isOk = first.isOk := by
  cases first <;> rfl

theorem encode_int_isOk_iff (runtime : Runtime) (indent : Option ℕ) (depth level : ℕ) (value : ℤ) :
    (encode runtime indent depth level (.int value)).isOk = true ↔ Fits depth (.int value) := by
  rw [encode, Fits]
  split_ifs with long
  · simpa [Except.isOk, Except.toBool] using long
  · simpa [Except.isOk, Except.toBool] using long

theorem encode_isOk_iff (runtime : Runtime) (indent : Option ℕ) (depth level : ℕ) (value : Value) :
    (encode runtime indent depth level value).isOk = true ↔ Fits depth value := by
  induction depth generalizing level value with
  | zero =>
      cases value with
      | int value => exact encode_int_isOk_iff runtime indent _ level value
      | _ => simp [encode, Fits, Except.isOk, Except.toBool]
  | succ depth induction =>
      cases value with
      | int value => exact encode_int_isOk_iff runtime indent _ level value
      | list items =>
          simp only [encode, Fits, isOk_bind_pure, mapM_isOk_iff, induction]
      | dict entries =>
          simp only [encode, Fits, isOk_bind_pure, mapM_isOk_iff, encodeEntry, induction]
      | _ => simp [encode, Fits, Except.isOk, Except.toBool]

theorem fits_sortKeys (levels depth : ℕ) (value : Value) :
    Fits levels (sortKeys depth value) ↔ Fits levels value := by
  induction levels generalizing depth value with
  | zero => cases depth <;> cases value <;> exact Iff.rfl
  | succ levels induction =>
      cases depth with
      | zero => cases value <;> exact Iff.rfl
      | succ depth =>
          cases value with
          | list items => simp [sortKeys, Fits, induction]
          | dict entries =>
              rw [sortKeys_dict, Fits, Fits, sortedEntries]
              simp only [(byKey_perm _).mem_iff, List.forall_mem_map, induction]
          | _ => exact Iff.rfl

/-- Exactly the values that fit can be written. -/
theorem dumps_isOk_iff (runtime : Runtime) (depth : ℕ) (style : Style) (value : Value) :
    (dumps runtime depth style value).isOk = true ↔ Fits depth value := by
  have written : (dumps runtime depth style value).isOk =
      (encode runtime style.indent depth 0
        (if style.sorted then sortKeys depth value else value)).isOk := by
    rw [dumps]
    cases encode runtime style.indent depth 0
      (if style.sorted then sortKeys depth value else value) <;> rfl
  rw [written, encode_isOk_iff]
  split_ifs
  · exact fits_sortKeys depth depth value
  · exact Iff.rfl

end Python.Json
