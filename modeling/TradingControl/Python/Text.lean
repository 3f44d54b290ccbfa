/-!
# Python string operations

The operations of `str` the source uses on its keywords, on lists of characters so that they
evaluate.  `lower` changes ASCII letters only: no other character lowers to a letter of one of the
keywords the source compares with.
-/

namespace Python

/-- `s.lower()`. -/
def lower (s : String) : String := String.ofList (s.toList.map Char.toLower)

private theorem toLower_toLower (c : Char) : c.toLower.toLower = c.toLower := by
  have fixed : ∀ d : Char, ¬(d.val ≥ 'A'.val ∧ d.val ≤ 'Z'.val) → d.toLower = d := by
    intro d notUpper
    delta Char.toLower
    rw [dif_neg notUpper]
  by_cases upper : c.val ≥ 'A'.val ∧ c.val ≤ 'Z'.val
  · apply fixed
    have value : c.toLower.val = c.val + ('a'.val - 'A'.val) := by
      delta Char.toLower
      simp only [dif_pos upper]
    rw [value]
    have bounds : 'A'.val.toNat = 65 ∧ 'Z'.val.toNat = 90 ∧ ('a'.val - 'A'.val).toNat = 32 := by
      decide
    simp only [ge_iff_le, UInt32.le_iff_toNat_le, UInt32.toNat_add] at upper ⊢
    omega
  · rw [fixed c upper, fixed c upper]

@[simp] theorem lower_lower (s : String) : lower (lower s) = lower s := by
  have twice : Char.toLower ∘ Char.toLower = Char.toLower := funext toLower_toLower
  simp [lower, twice]

/-- `s.upper()`. -/
def upper (s : String) : String := String.ofList (s.toList.map Char.toUpper)

/-- `letter.isspace()`. -/
def isWhitespace (letter : Char) : Bool :=
  let code := letter.toNat
  9 ≤ code && code ≤ 13 || 28 ≤ code && code ≤ 32 || code = 0x85 || code = 0xa0 ||
    code = 0x1680 || 0x2000 ≤ code && code ≤ 0x200a || code = 0x2028 || code = 0x2029 ||
    code = 0x202f || code = 0x205f || code = 0x3000

/-- `s.strip()`. -/
def strip (s : String) : String :=
  String.ofList ((s.toList.dropWhile isWhitespace).reverse.dropWhile isWhitespace).reverse

/-- `s.rstrip()`. -/
def rstrip (s : String) : String :=
  String.ofList (s.toList.reverse.dropWhile isWhitespace).reverse

/-- `s.startswith(pattern)`. -/
def startsWith (s pattern : String) : Bool := pattern.toList.isPrefixOf s.toList

/-- `s.endswith(pattern)`. -/
def endsWith (s pattern : String) : Bool := pattern.toList.isSuffixOf s.toList

/-- Some suffix of the text starts with the pattern. -/
def containsChars (pattern : List Char) : List Char → Bool
  | [] => pattern.isEmpty
  | head :: tail => pattern.isPrefixOf (head :: tail) || containsChars pattern tail

/-- `pattern in s`. -/
def contains (s pattern : String) : Bool := containsChars pattern.toList s.toList

/-- `a or b` for optional strings: the empty string counts as missing. -/
def orElse (a b : Option String) : Option String :=
  match a with
  | none => b
  | some text => if text = "" then b else a

/-- `a or default`. -/
def orDefault (a : Option String) (default : String) : String :=
  match a with
  | none => default
  | some text => if text = "" then default else text

/-- Numbers are told apart by their texts. -/
theorem repr_injective {first second : Nat} (same : Nat.repr first = Nat.repr second) :
    first = second := by
  have digits := congrArg String.toList same
  rw [Nat.toList_repr, Nat.toList_repr] at digits
  have numbers := congrArg (Nat.ofDigitChars 10 · 0) digits
  simpa using numbers

example : lower "Stop_LOSS" = "stop_loss" := by decide

example : contains "rule_fallback_used" "fallback" = true := by decide

/-! ## Texts joined by a mark -/

/-- `text.split(mark)`, for a mark of one letter. -/
def split (mark : Char) (text : String) : List String :=
  (text.toList.splitOn mark).map String.ofList

section

variable {mark : Char}

theorem split_join (first second : String) :
    split mark (first ++ String.ofList [mark] ++ second) =
      split mark first ++ split mark second := by
  have letters : (first ++ String.ofList [mark] ++ second).toList =
      first.toList ++ mark :: second.toList := by simp
  rw [split, letters, List.splitOn_append_cons_self, List.map_append, split, split]

theorem split_injective : Function.Injective (split mark) := by
  intro first second same
  have pieces : first.toList.splitOn mark = second.toList.splitOn mark :=
    (List.map_inj_right fun _ _ equal => String.ofList_injective equal).mp same
  have joined := congrArg [mark].intercalate pieces
  rw [List.intercalate_splitOn, List.intercalate_splitOn] at joined
  exact String.toList_injective joined

theorem split_of_free {text : String} (free : mark ∉ text.toList) : split mark text = [text] := by
  rw [split, List.splitOn_eq_singleton free, List.map_singleton, String.ofList_toList]

/-- The last field of a text can be told from what comes before it when it is free of the mark. -/
theorem join_eq_iff {front otherFront field otherField : String} (free : mark ∉ field.toList)
    (otherFree : mark ∉ otherField.toList) :
    front ++ String.ofList [mark] ++ field = otherFront ++ String.ofList [mark] ++ otherField ↔
      front = otherFront ∧ field = otherField := by
  constructor
  · intro same
    have pieces := congrArg (split mark) same
    rw [split_join, split_join, split_of_free free, split_of_free otherFree] at pieces
    obtain ⟨fronts, fields⟩ := List.append_inj' pieces rfl
    exact ⟨split_injective fronts, List.singleton_inj.mp fields⟩
  · rintro ⟨rfl, rfl⟩
    rfl

end

example : split '_' "mean_reversion" = ["mean", "reversion"] := by decide +kernel

end Python
