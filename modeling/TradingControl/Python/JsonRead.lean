import TradingControl.Python.JsonRoundTrip

/-!
# Values that are read

What `json.loads` finds in any text can be written again: it nests no deeper than the interpreter
goes, its integers are short enough, its dictionaries have distinct keys, and its floats are those
that `float` finds in texts.
-/

namespace Python.Json

/-! ## Lists -/

theorem mapM_eq_ok_iff {α β : Type} {convert : α → Except Raised β} {items : List α}
    {results : List β} : items.mapM convert = .ok results ↔
      List.Forall₂ (fun item result => convert item = .ok result) items results := by
  induction items generalizing results with
  | nil =>
      rw [List.mapM_nil]
      constructor
      · intro mapped
        cases mapped
        exact .nil
      · rintro ⟨⟩
        rfl
  | cons item items induction =>
      rw [List.mapM_cons]
      constructor
      · intro mapped
        obtain ⟨result, first, mapped⟩ := bind_eq_ok.mp mapped
        obtain ⟨rest, others, mapped⟩ := bind_eq_ok.mp mapped
        cases mapped
        exact .cons first (induction.mp others)
      · intro each
        cases each with
        | cons first others =>
            rw [first, induction.mpr others]
            rfl

/-! ## Numbers -/

theorem ofDigitChars_lt {chars : List Char} (all : ∀ letter ∈ chars, letter.isDigit = true)
    (start : ℕ) : Nat.ofDigitChars 10 chars start < 10 ^ chars.length * (start + 1) := by
  induction chars generalizing start with
  | nil => simp
  | cons letter rest induction =>
      have digit : letter.toNat - '0'.toNat ≤ 9 := by
        have bounds := all letter List.mem_cons_self
        have ends : '0'.val.toNat = 48 ∧ '9'.val.toNat = 57 := by decide
        simp only [Char.isDigit, Bool.and_eq_true, decide_eq_true_eq, ge_iff_le,
          UInt32.le_iff_toNat_le] at bounds
        rw [ends.1, ends.2] at bounds
        have zero : '0'.toNat = 48 := by decide
        rw [zero, Char.toNat]
        omega
      have later := induction (fun other member => all other (List.mem_cons_of_mem _ member))
        (10 * start + (letter.toNat - '0'.toNat))
      rw [Nat.ofDigitChars_cons]
      refine later.trans_le ?_
      rw [List.length_cons, pow_succ, mul_assoc]
      exact Nat.mul_le_mul_left _ (by omega)

/-- The digits of a number are no more than those it was read from. -/
theorem length_toDigits_le {chars : List Char} (all : ∀ letter ∈ chars, letter.isDigit = true)
    (nonempty : chars ≠ []) :
    (Nat.toDigits 10 (Nat.ofDigitChars 10 chars 0)).length ≤ chars.length := by
  rw [Nat.length_toDigits_le_iff (by decide) (List.length_pos_iff.mpr nonempty)]
  simpa using ofDigitChars_lt all 0

theorem scanWhole_digits {chars whole rest : List Char}
    (scanned : scanWhole chars = some (whole, rest)) :
    (∀ letter ∈ whole, letter.isDigit = true) ∧ whole ≠ [] := by
  cases chars with
  | nil => cases scanned
  | cons letter others =>
      rw [scanWhole] at scanned
      split_ifs at scanned with zero digit
      · cases scanned
        subst zero
        refine ⟨fun other member => ?_, List.cons_ne_nil _ _⟩
        rw [List.mem_singleton.mp member]
        rfl
      · cases scanned
        refine ⟨fun other member => ?_, ?_⟩
        · exact List.mem_takeWhile_imp member
        · simp [digits, digit]

/-! ## What readers yield -/

/-- Whatever the reader reads has the property. -/
def Yields {α : Type} (reader : Reader α) (property : α → Prop) : Prop :=
  ∀ chars value rest, reader chars = .ok (value, rest) → property value

variable {α : Type} {item : Reader α} {property : α → Prop}

theorem yields_readItems (yields : Yields item property) (closing : Char) (fuel : ℕ) :
    Yields (readItems item closing fuel) fun values => ∀ value ∈ values, property value := by
  induction fuel with
  | zero =>
      intro chars values rest read
      cases read
  | succ fuel induction =>
      intro chars values rest read
      rw [readItems] at read
      obtain ⟨⟨first, left⟩, head, read⟩ := bind_eq_ok.mp read
      have holds := yields _ _ _ head
      dsimp only at read
      cases after : skipSpace left with
      | nil => rw [after] at read; cases read
      | cons letter others =>
          rw [after] at read
          dsimp only at read
          split_ifs at read with closes comma
          · cases read
            simpa using holds
          · obtain ⟨⟨values, left⟩, tail, read⟩ := bind_eq_ok.mp read
            cases read
            exact List.forall_mem_cons.mpr ⟨holds, induction _ _ _ tail⟩

theorem yields_readEnclosed (yields : Yields item property) (closing : Char) :
    Yields (readEnclosed item closing) fun values => ∀ value ∈ values, property value := by
  intro chars values rest read
  rw [readEnclosed] at read
  cases after : skipSpace chars with
  | nil => rw [after] at read; cases read
  | cons letter others =>
      rw [after] at read
      dsimp only at read
      split_ifs at read with closes
      · cases read
        simp
      · exact yields_readItems yields closing _ _ _ _ read

theorem yields_readEntry {item : Reader Value} {property : Value → Prop}
    (yields : Yields item property) :
    Yields (readEntry item) fun entry => property entry.2 := by
  intro chars entry rest read
  cases chars with
  | nil => cases read
  | cons letter others =>
      rw [readEntry] at read
      split_ifs at read with quote
      obtain ⟨⟨key, left⟩, -, read⟩ := bind_eq_ok.mp read
      dsimp only at read
      cases after : skipSpace left with
      | nil => rw [after] at read; cases read
      | cons letter others =>
          rw [after] at read
          dsimp only at read
          split_ifs at read with colon
          obtain ⟨⟨value, left⟩, held, read⟩ := bind_eq_ok.mp read
          cases read
          exact yields _ _ _ held

theorem readNumber_eq_ok {runtime : Runtime} {chars rest : List Char} {value : Value}
    (read : readNumber runtime chars = .ok (value, rest)) :
    ∃ numeral, scanNumeral chars = some (numeral, rest) ∧ numeral.value runtime = .ok value := by
  rw [readNumber] at read
  cases scanned : scanNumeral chars with
  | none => rw [scanned] at read; cases read
  | some found =>
      obtain ⟨numeral, left⟩ := found
      rw [scanned] at read
      dsimp only at read
      cases valued : numeral.value runtime with
      | error raised => rw [valued] at read; cases read
      | ok found =>
          rw [valued] at read
          cases read
          exact ⟨numeral, rfl, valued⟩

theorem fits_of_scalar {value : Value} (depth : ℕ) (noInt : ∀ number, value ≠ .int number)
    (noList : ∀ items, value ≠ .list items) (noDict : ∀ entries, value ≠ .dict entries) :
    Fits depth value := by
  cases value with
  | int number => exact absurd rfl (noInt number)
  | list items => exact absurd rfl (noList items)
  | dict entries => exact absurd rfl (noDict entries)
  | _ => cases depth <;> trivial

theorem fits_int_iff (depth : ℕ) (number : ℤ) :
    Fits depth (.int number) ↔ (Nat.toDigits 10 number.natAbs).length ≤ maxStrDigits := by
  cases depth <;> rw [Fits]

section

variable {runtime : Runtime}
  (prints : ∀ text x, runtime.parseFloat text = some x → FloatText runtime x)

include prints

theorem value_spec {numeral : Numeral} (all : ∀ letter ∈ numeral.whole, letter.isDigit = true)
    (nonempty : numeral.whole ≠ []) {value : Value} (valued : numeral.value runtime = .ok value)
    (depth : ℕ) : Fits depth value ∧ Faithful runtime value := by
  rw [Numeral.value] at valued
  by_cases integer : numeral.isInteger = true
  · rw [if_pos integer] at valued
    by_cases long : maxStrDigits < numeral.whole.length
    · rw [if_pos long] at valued
      cases valued
    · rw [if_neg long] at valued
      cases valued
      refine ⟨(fits_int_iff depth _).mpr ?_, .int _⟩
      have magnitude : (if numeral.negative = true then
          -(Nat.ofDigitChars 10 numeral.whole 0 : ℤ)
          else Nat.ofDigitChars 10 numeral.whole 0).natAbs =
            Nat.ofDigitChars 10 numeral.whole 0 := by
        split_ifs <;> simp
      rw [magnitude]
      exact (length_toDigits_le all nonempty).trans (Nat.not_lt.mp long)
  · rw [if_neg integer] at valued
    cases parsed : runtime.parseFloat (String.ofList numeral.chars) with
    | none =>
        rw [parsed] at valued
        cases valued
        exact ⟨fits_of_scalar depth (by simp) (by simp) (by simp), .nonFinite _⟩
    | some x =>
        rw [parsed] at valued
        cases valued
        exact ⟨fits_of_scalar depth (by simp) (by simp) (by simp), .float x (prints _ x parsed)⟩

theorem yields_readNumber (depth : ℕ) :
    Yields (readNumber runtime) fun value => Fits depth value ∧ Faithful runtime value := by
  intro chars value rest read
  obtain ⟨numeral, scanned, valued⟩ := readNumber_eq_ok read
  rw [scanNumeral] at scanned
  dsimp only at scanned
  cases whole : scanWhole (scanSign chars).2 with
  | none => rw [whole] at scanned; cases scanned
  | some found =>
      rw [whole] at scanned
      cases scanned
      obtain ⟨all, nonempty⟩ := scanWhole_digits whole
      exact value_spec prints all nonempty valued depth

end

/-! ## Values -/

/-- The entries of an object, as `dict` keeps them. -/
theorem foldl_set_spec {property : Value → Prop} (held entries : Dict String Value)
    (distinct : (Dict.keys held).Nodup) (heldAll : ∀ entry ∈ held, property entry.2)
    (all : ∀ entry ∈ entries, property entry.2) :
    (Dict.keys (entries.foldl (fun held entry => Dict.set entry.1 entry.2 held) held)).Nodup ∧
      ∀ entry ∈ entries.foldl (fun held entry => Dict.set entry.1 entry.2 held) held,
        property entry.2 := by
  induction entries generalizing held with
  | nil => exact ⟨distinct, heldAll⟩
  | cons entry entries induction =>
      refine induction _ (Dict.nodup_set _ _ distinct) (fun other member => ?_)
        fun other member => all other (List.mem_cons_of_mem _ member)
      rcases Dict.mem_of_mem_set member with rfl | earlier
      · exact all entry List.mem_cons_self
      · exact heldAll other earlier

section

variable {runtime : Runtime}
  (prints : ∀ text x, runtime.parseFloat text = some x → FloatText runtime x)

include prints

/-- Values inside a value fit one level less. -/
theorem yields_readOnce {inner : Option (Reader Value)} {depth : ℕ}
    (yields : ∀ item ∈ inner, ∃ below, depth = below + 1 ∧
      Yields item fun value => Fits below value ∧ Faithful runtime value) :
    Yields (readOnce runtime inner) fun value => Fits depth value ∧ Faithful runtime value := by
  intro chars value rest read
  cases chars with
  | nil => cases read
  | cons letter others =>
      simp only [readOnce] at read
      split_ifs at read with quote bracket brace
      · obtain ⟨⟨text, left⟩, -, read⟩ := bind_eq_ok.mp read
        cases read
        exact ⟨fits_of_scalar depth (by simp) (by simp) (by simp), .str text⟩
      · cases inner with
        | none => cases read
        | some item =>
            obtain ⟨below, rfl, all⟩ := yields item rfl
            obtain ⟨⟨items, left⟩, enclosed, read⟩ := bind_eq_ok.mp read
            cases read
            have each := yields_readEnclosed all ']' _ _ _ enclosed
            exact ⟨fun item member => (each item member).1,
              .list items fun item member => (each item member).2⟩
      · cases inner with
        | none => cases read
        | some item =>
            obtain ⟨below, rfl, all⟩ := yields item rfl
            obtain ⟨⟨entries, left⟩, enclosed, read⟩ := bind_eq_ok.mp read
            cases read
            have each := yields_readEnclosed (yields_readEntry all) '\x7d' _ _ _ enclosed
            obtain ⟨distinct, kept⟩ := @foldl_set_spec
              (fun value => Fits below value ∧ Faithful runtime value) [] entries List.nodup_nil
              (fun entry member => absurd member List.not_mem_nil) each
            exact ⟨fun entry member => (kept entry member).1,
              .dict _ distinct fun entry member => (kept entry member).2⟩
      · cases word : readWord (letter :: others) with
        | none =>
            rw [word] at read
            exact yields_readNumber prints depth _ _ _ read
        | some found =>
            rw [word] at read
            cases read
            rw [readWord, Option.map_eq_some_iff] at word
            obtain ⟨held, found, same⟩ := word
            cases same
            have each : ∀ word ∈ words, Fits depth word.2 ∧ Faithful runtime word.2 := by
              simp only [words, List.forall_mem_cons]
              refine ⟨⟨?_, .none⟩, ⟨?_, .bool _⟩, ⟨?_, .bool _⟩, ⟨?_, .nonFinite _⟩,
                ⟨?_, .nonFinite _⟩, ⟨?_, .nonFinite _⟩, by simp⟩ <;>
                exact fits_of_scalar depth (by simp) (by simp) (by simp)
            exact each held (List.mem_of_find?_eq_some found)

theorem yields_readValue (depth : ℕ) :
    Yields (readValue runtime depth) fun value => Fits depth value ∧ Faithful runtime value := by
  induction depth with
  | zero => exact yields_readOnce prints fun item member => absurd member (by simp)
  | succ depth induction =>
      refine yields_readOnce prints fun item member => ⟨depth, rfl, ?_⟩
      obtain rfl := Option.some.inj member
      exact induction

/-- What is read can be written, and is read back from what is written. -/
theorem loads_spec {depth : ℕ} {text : String} {value : Value}
    (read : loads runtime depth text = .ok value) : Fits depth value ∧ Faithful runtime value := by
  rw [loads] at read
  obtain ⟨⟨found, rest⟩, reads, read⟩ := bind_eq_ok.mp read
  dsimp only at read
  split_ifs at read
  cases read
  exact yields_readValue prints depth _ _ _ reads

end

/-! ## Texts -/

theorem length_readHex4 {chars rest : List Char} {unit : ℕ}
    (read : readHex4 chars = some (unit, rest)) : rest.length < chars.length := by
  rcases chars with _ | ⟨first, _ | ⟨second, _ | ⟨third, _ | ⟨fourth, others⟩⟩⟩⟩
  · cases read
  · cases read
  · cases read
  · cases read
  · simp only [readHex4, Option.bind_eq_bind, Option.bind_eq_some_iff, Option.pure_def,
      Option.some.injEq, Prod.mk.injEq] at read
    obtain ⟨-, -, -, -, -, -, -, -, -, rfl⟩ := read
    simp only [List.length_cons]
    omega

theorem length_readLowSurrogate {chars rest : List Char} {unit : ℕ}
    (read : readLowSurrogate chars = some (unit, rest)) : rest.length < chars.length := by
  unfold readLowSurrogate at read
  split at read
  · have shorter := length_readHex4 (Option.eq_some_of_filter_eq_some read)
    simp only [List.length_cons]
    omega
  · cases read

/-- A character takes at least one letter after the backslash. -/
theorem length_readEscape {chars rest : List Char} {letter : Char}
    (read : readEscape chars = some (letter, rest)) : rest.length < chars.length := by
  cases chars with
  | nil => cases read
  | cons first others =>
      simp only [readEscape] at read
      split_ifs at read with unicode slash
      · cases hex : readHex4 others with
        | none => rw [hex] at read; cases read
        | some found =>
            obtain ⟨unit, left⟩ := found
            have shorter := length_readHex4 hex
            rw [hex] at read
            dsimp only at read
            split_ifs at read with high
            · cases low : readLowSurrogate left with
              | none =>
                  rw [low] at read
                  cases read
                  exact shorter.trans (Nat.lt_succ_self _)
              | some pair =>
                  obtain ⟨unit, last⟩ := pair
                  have less := length_readLowSurrogate low
                  simp only [low, Option.some.injEq, Prod.mk.injEq] at read
                  obtain ⟨-, rfl⟩ := read
                  exact less.trans (shorter.trans (Nat.lt_succ_self _))
            · cases read
              exact shorter.trans (Nat.lt_succ_self _)
      · cases read
        exact Nat.lt_succ_self _
      · obtain ⟨short, -, same⟩ := Option.map_eq_some_iff.mp read
        cases same
        exact Nat.lt_succ_self _

/-- The letters of a text are fewer than those they are read from. -/
theorem length_readLetters {fuel : ℕ} {chars letters rest : List Char}
    (read : readLetters fuel chars = some (letters, rest)) :
    letters.length + rest.length < chars.length := by
  induction fuel generalizing chars letters with
  | zero => cases read
  | succ fuel induction =>
      cases chars with
      | nil => cases read
      | cons letter others =>
          rw [readLetters] at read
          split_ifs at read with quote backslash control
          · cases read
            simp
          · cases escaped : readEscape others with
            | none => rw [escaped] at read; cases read
            | some found =>
                obtain ⟨letter, left⟩ := found
                rw [escaped] at read
                obtain ⟨⟨more, last⟩, later, same⟩ := Option.map_eq_some_iff.mp read
                cases same
                have bound := induction later
                have taken := length_readEscape escaped
                simp only [List.length_cons] at *
                omega
          · obtain ⟨⟨more, last⟩, later, same⟩ := Option.map_eq_some_iff.mp read
            cases same
            have bound := induction later
            simp only [List.length_cons] at *
            omega

theorem value_ne_str (runtime : Runtime) (numeral : Numeral) (text : String) :
    numeral.value runtime ≠ .ok (.str text) := by
  intro valued
  rw [Numeral.value] at valued
  by_cases integer : numeral.isInteger = true
  · rw [if_pos integer] at valued
    split_ifs at valued <;> cases valued
  · rw [if_neg integer] at valued
    cases parsed : runtime.parseFloat (String.ofList numeral.chars) with
    | none => rw [parsed] at valued; cases valued
    | some x => rw [parsed] at valued; cases valued

theorem length_lt_of_readOnce {runtime : Runtime} {inner : Option (Reader Value)}
    {chars rest : List Char} {text : String}
    (read : readOnce runtime inner chars = .ok (.str text, rest)) :
    text.toList.length < chars.length := by
  cases chars with
  | nil => cases read
  | cons letter others =>
      simp only [readOnce] at read
      split_ifs at read with quote bracket brace
      · obtain ⟨⟨found, left⟩, held, read⟩ := bind_eq_ok.mp read
        cases read
        rw [readText] at held
        cases letters : readLetters others.length others with
        | none => rw [letters] at held; cases held
        | some pair =>
            rw [letters] at held
            cases held
            have fewer := length_readLetters letters
            simp only [String.toList_ofList, List.length_cons]
            omega
      · cases inner with
        | none => cases read
        | some item =>
            obtain ⟨items, -, read⟩ := bind_eq_ok.mp read
            cases read
      · cases inner with
        | none => cases read
        | some item =>
            obtain ⟨entries, -, read⟩ := bind_eq_ok.mp read
            cases read
      · cases word : readWord (letter :: others) with
        | none =>
            rw [word] at read
            obtain ⟨numeral, -, valued⟩ := readNumber_eq_ok read
            exact absurd valued (value_ne_str runtime numeral text)
        | some found =>
            rw [word] at read
            cases read
            rw [readWord, Option.map_eq_some_iff] at word
            obtain ⟨held, found, same⟩ := word
            have noText : ∀ word ∈ words, word.2 ≠ .str text := by simp [words]
            exact absurd (congrArg Prod.fst same) (noText held (List.mem_of_find?_eq_some found))

theorem loads_kind {runtime : Runtime} {depth : ℕ} {text : String} {value : Value} {letter : Char}
    (first : text.toList.head? = some letter)
    (starts : letter = '\x7b' ∨ letter = '[' ∨ letter = '\x22')
    (read : loads runtime depth text = .ok value) :
    (∃ items, value = .list items) ∨ (∃ entries, value = .dict entries) ∨
      ∃ inner, value = .str inner := by
  obtain ⟨others, shape⟩ := List.head?_eq_some_iff.mp first
  have noSpace : isSpace letter = false := by rcases starts with rfl | rfl | rfl <;> decide
  rw [loads, shape, skipSpace_cons noSpace] at read
  obtain ⟨⟨found, rest⟩, reads, read⟩ := bind_eq_ok.mp read
  dsimp only at read
  split_ifs at read
  cases read
  obtain ⟨inner, same⟩ : ∃ inner, readValue runtime depth = readOnce runtime inner := by
    cases depth <;> exact ⟨_, rfl⟩
  rw [same] at reads
  simp only [readOnce] at reads
  split_ifs at reads with quote bracket brace
  · obtain ⟨pair, -, reads⟩ := bind_eq_ok.mp reads
    cases reads
    exact Or.inr (Or.inr ⟨_, rfl⟩)
  · cases inner with
    | none => cases reads
    | some item =>
        obtain ⟨pair, -, reads⟩ := bind_eq_ok.mp reads
        cases reads
        exact Or.inl ⟨_, rfl⟩
  · cases inner with
    | none => cases reads
    | some item =>
        obtain ⟨pair, -, reads⟩ := bind_eq_ok.mp reads
        cases reads
        exact Or.inr (Or.inl ⟨_, rfl⟩)
  · rcases starts with rfl | rfl | rfl <;> contradiction

/-- No text is read as itself. -/
theorem loads_ne_self (runtime : Runtime) (depth : ℕ) (text : String) :
    loads runtime depth text ≠ .ok (.str text) := by
  intro read
  rw [loads] at read
  obtain ⟨⟨found, rest⟩, reads, read⟩ := bind_eq_ok.mp read
  dsimp only at read
  split_ifs at read
  cases read
  have shorter : text.toList.length < (skipSpace text.toList).length := by
    cases depth <;> exact length_lt_of_readOnce reads
  have most : (skipSpace text.toList).length ≤ text.toList.length :=
    (List.dropWhile_suffix isSpace).length_le
  omega

end Python.Json
