import Mathlib.Data.List.Basic
import TradingControl.Python.Text

/-!
# Lines of a text

`str.splitlines` and the joining of lines, and what stripping does to them.  A line is the list of
its letters.  A reading of lines that the whitespace at the ends of their text does not change is
the same of the lines of a text and of those of the stripped text.
-/

namespace Python

abbrev Line := List Char

/-! ## Definitions -/

def isLineBreak (letter : Char) : Bool :=
  let code := letter.toNat
  10 ≤ code && code ≤ 13 || 28 ≤ code && code ≤ 30 || code = 0x85 || code = 0x2028 ||
    code = 0x2029

def consLetter (letter : Char) : List Line → List Line
  | [] => [[letter]]
  | first :: others => (letter :: first) :: others

/-- `text.splitlines()`; a carriage return and a line feed end one line. -/
def splitlines : List Char → List Line
  | [] => []
  | letter :: rest =>
      if letter = '\r' ∧ rest.head? = some '\n' then splitlines rest
      else if isLineBreak letter then [] :: splitlines rest
      else consLetter letter (splitlines rest)

/-- `"\n".join(lines)`. -/
def joinLines (lines : List Line) : List Char := ['\n'].intercalate lines

/-- `text.lstrip()`. -/
def trimStart (text : List Char) : List Char := text.dropWhile isWhitespace

/-- `text.strip()`. -/
def trim (text : List Char) : List Char := (trimStart (trimStart text).reverse).reverse

theorem strip_eq (text : String) : strip text = String.ofList (trim text.toList) := rfl

/-- Whitespace only. -/
def Blank (text : List Char) : Prop := ∀ letter ∈ text, isWhitespace letter = true

/-- No letter ends a line. -/
def OneLine (line : Line) : Prop := ∀ letter ∈ line, isLineBreak letter = false

instance (line : Line) : Decidable (OneLine line) :=
  List.decidableBAll (fun letter => isLineBreak letter = false) line

theorem oneLine_append (front back : List Char) :
    OneLine (front ++ back) ↔ OneLine front ∧ OneLine back :=
  List.forall_mem_append

/-! ## Joining and splitting -/

theorem joinLines_cons_cons (first second : Line) (lines : List Line) :
    joinLines (first :: second :: lines) = first ++ '\n' :: joinLines (second :: lines) := by
  simp [joinLines, List.intercalate_cons_cons]

@[simp] theorem joinLines_singleton (line : Line) : joinLines [line] = line := by
  simp [joinLines]

theorem joinLines_concat (first : Line) (lines : List Line) (last : Line) :
    joinLines (first :: lines ++ [last]) = joinLines (first :: lines) ++ '\n' :: last := by
  induction lines generalizing first with
  | nil => simp [joinLines_cons_cons]
  | cons second lines induction =>
      rw [List.cons_append, List.cons_append, joinLines_cons_cons, ← List.cons_append, induction,
        joinLines_cons_cons, List.append_assoc, List.cons_append]

theorem splitlines_oneLine (text : List Char) : ∀ line ∈ splitlines text, OneLine line := by
  induction text with
  | nil => simp [splitlines]
  | cons letter rest induction =>
      rw [splitlines]
      split_ifs with carriage ends
      · exact induction
      · intro line listed
        rcases List.mem_cons.mp listed with rfl | listed
        · simp [OneLine]
        · exact induction line listed
      · have plain : isLineBreak letter = false := Bool.eq_false_iff.mpr ends
        cases lines : splitlines rest with
        | nil => simp [OneLine, consLetter, plain]
        | cons first others =>
            rw [lines] at induction
            rw [consLetter]
            intro line listed
            rcases List.mem_cons.mp listed with rfl | listed
            · intro other member
              rcases List.mem_cons.mp member with rfl | member
              · exact plain
              · exact induction first List.mem_cons_self other member
            · exact induction line (List.mem_cons_of_mem _ listed)

theorem splitlines_append_break {line : Line} (plain : OneLine line) (rest : List Char) :
    splitlines (line ++ '\n' :: rest) = line :: splitlines rest := by
  induction line with
  | nil => simp [splitlines, isLineBreak]
  | cons letter line induction =>
      have here : isLineBreak letter = false := plain letter List.mem_cons_self
      have rest := induction fun other member => plain other (List.mem_cons_of_mem _ member)
      have noReturn : letter ≠ '\r' := by
        rintro rfl
        cases here
      rw [List.cons_append, splitlines, if_neg fun carriage => noReturn carriage.1,
        if_neg (by simp [here]), rest, consLetter]

theorem splitlines_of_oneLine {line : Line} (plain : OneLine line) (filled : line ≠ []) :
    splitlines line = [line] := by
  induction line with
  | nil => exact absurd rfl filled
  | cons letter line induction =>
      have here : isLineBreak letter = false := plain letter List.mem_cons_self
      have noReturn : letter ≠ '\r' := by
        rintro rfl
        cases here
      rw [splitlines, if_neg fun carriage => noReturn carriage.1, if_neg (by simp [here])]
      cases line with
      | nil => rfl
      | cons second line =>
          rw [induction (fun other member => plain other (List.mem_cons_of_mem _ member))
            (List.cons_ne_nil _ _), consLetter]

/-- Lines are read back from their join, but for an empty line at its end. -/
theorem splitlines_joinLines {lines : List Line} (plain : ∀ line ∈ lines, OneLine line) :
    splitlines (joinLines lines) =
      if lines.getLast? = some [] then lines.dropLast else lines := by
  induction lines with
  | nil => rfl
  | cons line lines induction =>
      have here := plain line List.mem_cons_self
      cases lines with
      | nil =>
          rw [joinLines_singleton]
          by_cases empty : line = []
          · rw [empty]
            rfl
          · rw [splitlines_of_oneLine here empty, if_neg (by simp [empty])]
      | cons second lines =>
          rw [joinLines_cons_cons, splitlines_append_break here,
            induction fun other member => plain other (List.mem_cons_of_mem _ member),
            List.getLast?_cons_cons]
          split_ifs
          · rfl
          · rfl

/-! ## Stripping -/

section

variable {text front back : List Char} {letter : Char}

theorem trimStart_append (blank : Blank front) (text : List Char) :
    trimStart (front ++ text) = trimStart text :=
  List.dropWhile_append_of_pos blank

theorem trim_append (blank : Blank front) (text : List Char) :
    trim (front ++ text) = trim text := by
  rw [trim, trimStart_append blank, ← trim]

theorem blank_singleton (space : isWhitespace letter = true) : Blank [letter] := by
  intro other member
  rw [List.mem_singleton.mp member]
  exact space

theorem trim_cons (space : isWhitespace letter = true) (text : List Char) :
    trim (letter :: text) = trim text :=
  trim_append (blank_singleton space) text

theorem trim_append_blank (text : List Char) (blank : Blank back) :
    trim (text ++ back) = trim text := by
  have reversed : Blank back.reverse :=
    fun letter member => blank letter (List.mem_reverse.mp member)
  rw [trim, trim, trimStart, trimStart, List.dropWhile_append]
  split_ifs with nothing
  · have gone : back.dropWhile isWhitespace = [] := by
      simpa [trimStart] using trimStart_append blank []
    have front : trimStart text = [] := List.isEmpty_iff.mp nothing
    rw [gone, front]
    rfl
  · rw [List.reverse_append, ← trimStart, trimStart_append reversed, ← trimStart]

theorem trim_snoc (text : List Char) (space : isWhitespace letter = true) :
    trim (text ++ [letter]) = trim text :=
  trim_append_blank text (blank_singleton space)

/-- What no whitespace at an end changes, stripping does not change. -/
theorem read_trim {α : Type} (read : List Char → α)
    (front : ∀ {letter} text, isWhitespace letter = true → read (letter :: text) = read text)
    (back : ∀ {letter} text, isWhitespace letter = true → read (text ++ [letter]) = read text)
    (text : List Char) : read (trim text) = read text := by
  have start : ∀ (other : List Char → α) (_ : ∀ {letter} text, isWhitespace letter = true →
      other (letter :: text) = other text) (text : List Char),
      other (trimStart text) = other text := by
    intro other step text
    induction text with
    | nil => rfl
    | cons letter text induction =>
        rw [trimStart, List.dropWhile_cons]
        split_ifs with space
        · exact induction.trans (step text space).symm
        · rfl
  have ends := start (fun text => read text.reverse)
    (fun text space => by rw [List.reverse_cons]; exact back _ space) (trimStart text).reverse
  rw [trim, ends, List.reverse_reverse]
  exact start read front text

@[simp] theorem trim_trim (text : List Char) : trim (trim text) = trim text :=
  read_trim trim (fun text space => trim_cons space text) (fun text space => trim_snoc text space)
    text

theorem trim_of_ends {first last : Char} (front : isWhitespace first = false)
    (back : isWhitespace last = false) (middle : List Char) :
    trim (first :: (middle ++ [last])) = first :: (middle ++ [last]) := by
  have start : trimStart (first :: (middle ++ [last])) = first :: (middle ++ [last]) :=
    List.dropWhile_cons_of_neg (by simp [front])
  rw [trim, start, ← List.cons_append, List.reverse_append, List.reverse_singleton,
    List.singleton_append, trimStart, List.dropWhile_cons_of_neg (by simp [back]),
    List.reverse_cons, List.reverse_reverse]

end

/-! ## Readings of lines -/

/-- A reading of lines that the whitespace at the ends of their text does not change. -/
structure EndBlind {α : Type} (read : List Line → α) : Prop where
  frontEmpty : ∀ lines, read ([] :: lines) = read lines
  frontSpace : ∀ {letter} line lines, isWhitespace letter = true →
    read ((letter :: line) :: lines) = read (line :: lines)
  backEmpty : ∀ lines, read (lines ++ [[]]) = read lines
  backSpace : ∀ {letter} line lines, isWhitespace letter = true →
    read (lines ++ [line ++ [letter]]) = read (lines ++ [line])

/-- What a letter of whitespace at the end of a text does to its lines. -/
inductive Grown (letter : Char) : List Line → List Line → Prop where
  | same (lines : List Line) : Grown letter lines lines
  | empty (lines : List Line) : Grown letter lines (lines ++ [[]])
  | alone (lines : List Line) : Grown letter lines (lines ++ [[letter]])
  | longer (lines : List Line) (line : Line) :
      Grown letter (lines ++ [line]) (lines ++ [line ++ [letter]])

theorem grown_cons {letter : Char} {lines others : List Line} (grown : Grown letter lines others)
    (line : Line) : Grown letter (line :: lines) (line :: others) := by
  cases grown with
  | same => exact .same _
  | empty => exact .empty (line :: lines)
  | alone => exact .alone (line :: lines)
  | longer lines last => exact .longer (line :: lines) last

theorem grown_consLetter {letter : Char} {lines others : List Line}
    (grown : Grown letter lines others) (head : Char) :
    Grown letter (consLetter head lines) (consLetter head others) := by
  cases grown with
  | same => exact .same _
  | empty =>
      cases lines with
      | nil => exact .same _
      | cons first rest => exact .empty ((head :: first) :: rest)
  | alone =>
      cases lines with
      | nil => exact .longer [] [head]
      | cons first rest => exact .alone ((head :: first) :: rest)
  | longer lines last =>
      cases lines with
      | nil => exact .longer [] (head :: last)
      | cons first rest => exact .longer ((head :: first) :: rest) last

theorem splitlines_snoc (text : List Char) (letter : Char) :
    Grown letter (splitlines text) (splitlines (text ++ [letter])) := by
  induction text with
  | nil =>
      rw [List.nil_append, splitlines, splitlines]
      split_ifs
      · exact .same _
      · exact .empty []
      · exact .alone []
  | cons head text induction =>
      rw [List.cons_append, splitlines, splitlines]
      by_cases carriage : head = '\r' ∧ text.head? = some '\n'
      · have grown : head = '\r' ∧ (text ++ [letter]).head? = some '\n' := by
          refine ⟨carriage.1, ?_⟩
          rw [List.head?_append, carriage.2]
          rfl
        rw [if_pos carriage, if_pos grown]
        exact induction
      · rw [if_neg carriage]
        by_cases grown : head = '\r' ∧ (text ++ [letter]).head? = some '\n'
        · -- the letter is the line feed of the carriage return at the end
          have last : text = [] := by
            cases text with
            | nil => rfl
            | cons next text => exact absurd ⟨grown.1, grown.2⟩ carriage
          rw [if_pos grown]
          subst last
          obtain ⟨rfl, feed⟩ := grown
          obtain rfl : letter = '\n' := Option.some.inj feed
          exact .same _
        · rw [if_neg grown]
          split_ifs
          · exact grown_cons induction []
          · exact grown_consLetter induction head

namespace EndBlind

variable {α : Type} {read : List Line → α}

theorem consLetter (blind : EndBlind read) {letter : Char} (space : isWhitespace letter = true)
    (lines : List Line) : read (consLetter letter lines) = read lines := by
  cases lines with
  | nil => exact (blind.frontSpace [] [] space).trans (blind.frontEmpty [])
  | cons first rest => exact blind.frontSpace first rest space

theorem grown (blind : EndBlind read) {letter : Char} (space : isWhitespace letter = true)
    {lines others : List Line} (grown : Grown letter lines others) : read others = read lines := by
  cases grown with
  | same => rfl
  | empty => exact blind.backEmpty lines
  | alone => exact (blind.backSpace [] lines space).trans (blind.backEmpty lines)
  | longer lines last => exact blind.backSpace last lines space

theorem splitlines_trim (blind : EndBlind read) (text : List Char) :
    read (splitlines (trim text)) = read (splitlines text) := by
  refine read_trim (fun text => read (splitlines text)) ?_ ?_ text
  · intro letter text space
    rw [splitlines]
    split_ifs
    · rfl
    · exact blind.frontEmpty _
    · exact blind.consLetter space _
  · intro letter text space
    exact blind.grown space (splitlines_snoc text letter)

theorem splitlines_joinLines (blind : EndBlind read) {lines : List Line}
    (plain : ∀ line ∈ lines, OneLine line) : read (splitlines (joinLines lines)) = read lines := by
  rw [Python.splitlines_joinLines plain]
  split_ifs with open'
  · obtain ⟨front, rfl⟩ := List.getLast?_eq_some_iff.mp open'
    rw [List.dropLast_concat, blind.backEmpty]
  · rfl

end EndBlind

/-- What is read of single lines, each up to the whitespace around it. -/
theorem endBlind_filterMap {α : Type} {read : Line → Option α}
    (trimmed : ∀ first second, trim first = trim second → read first = read second)
    (empty : read [] = none) : EndBlind (List.filterMap read) where
  frontEmpty lines := by rw [List.filterMap_cons, empty]
  frontSpace line lines space := by
    rw [List.filterMap_cons, List.filterMap_cons, trimmed _ _ (trim_cons space line)]
  backEmpty lines := by
    rw [List.filterMap_append, List.filterMap_cons, empty, List.filterMap_nil, List.append_nil]
  backSpace line lines space := by
    rw [List.filterMap_append, List.filterMap_append, List.filterMap_cons, List.filterMap_cons,
      trimmed _ _ (trim_snoc line space)]

/-- The text of the lines that are kept, up to the whitespace around it. -/
theorem endBlind_filter {keep : Line → Bool}
    (trimmed : ∀ first second, trim first = trim second → keep first = keep second)
    (empty : keep [] = true) : EndBlind fun lines => trim (joinLines (lines.filter keep)) where
  frontEmpty lines := by
    rw [List.filter_cons, if_pos empty]
    cases lines.filter keep with
    | nil => rfl
    | cons first rest =>
        rw [joinLines_cons_cons]
        exact trim_cons (by decide) _
  frontSpace line lines space := by
    rw [List.filter_cons, List.filter_cons, trimmed _ _ (trim_cons space line)]
    split_ifs
    · cases lines.filter keep with
      | nil =>
          rw [joinLines_singleton, joinLines_singleton]
          exact trim_cons space line
      | cons first rest =>
          rw [joinLines_cons_cons, joinLines_cons_cons]
          exact trim_cons space _
    · rfl
  backEmpty lines := by
    rw [List.filter_append, List.filter_cons, if_pos empty, List.filter_nil]
    cases lines.filter keep with
    | nil => rfl
    | cons first rest =>
        rw [joinLines_concat]
        exact trim_snoc _ (by decide)
  backSpace line lines space := by
    rw [List.filter_append, List.filter_append, List.filter_cons, List.filter_cons,
      trimmed _ _ (trim_snoc line space)]
    split_ifs
    · cases lines.filter keep with
      | nil =>
          rw [List.filter_nil, List.nil_append, List.nil_append, joinLines_singleton,
            joinLines_singleton]
          exact trim_snoc line space
      | cons first rest =>
          rw [List.filter_nil, joinLines_concat, joinLines_concat, ← List.cons_append,
            ← List.append_assoc]
          exact trim_snoc _ space
    · rfl

end Python
