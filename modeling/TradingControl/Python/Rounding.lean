import Mathlib.Tactic.Linarith
import TradingControl.Python.Dict
import TradingControl.Python.Runtime

/-!
# Floats with infinities

Numbers of a payload that need not be rational.  Comparisons with what is no number are false, and
an operation yields a rational only from rationals, a quotient by an infinity apart.
-/

namespace Python

/-- A float: an exact rational, an infinity or no number. -/
inductive Number where
  | finite (value : ℚ)
  | nonFinite (value : NonFinite)
deriving DecidableEq, Repr

namespace Number

def toValue : Number → Value
  | .finite value => .float value
  | .nonFinite value => .nonFinite value

/-! ## Order -/

/-- `first < second`. -/
def lt : Number → Number → Bool
  | .finite first, .finite second => first < second
  | .finite _, .nonFinite .infinity => true
  | .nonFinite .negativeInfinity, .finite _ => true
  | .nonFinite .negativeInfinity, .nonFinite .infinity => true
  | _, _ => false

/-- `first <= second`. -/
def le : Number → Number → Bool
  | .finite first, .finite second => first ≤ second
  | .finite _, .nonFinite .infinity => true
  | .nonFinite .negativeInfinity, .finite _ => true
  | .nonFinite .negativeInfinity, .nonFinite .nan => false
  | .nonFinite .negativeInfinity, .nonFinite _ => true
  | .nonFinite .infinity, .nonFinite .infinity => true
  | _, _ => false

/-- `max(first, second)`: the first one unless the second is larger. -/
protected def max (first second : Number) : Number := if lt first second then second else first

/-- `min(first, second)`: the first one unless the second is smaller. -/
protected def min (first second : Number) : Number := if lt second first then second else first

/-! ## Arithmetic -/

/-- `-x`. -/
def neg : Number → Number
  | .finite value => .finite (-value)
  | .nonFinite .infinity => .nonFinite .negativeInfinity
  | .nonFinite .negativeInfinity => .nonFinite .infinity
  | .nonFinite .nan => .nonFinite .nan

/-- `first + second`. -/
def add : Number → Number → Number
  | .finite first, .finite second => .finite (first + second)
  | .finite _, .nonFinite second => .nonFinite second
  | .nonFinite first, .finite _ => .nonFinite first
  | .nonFinite first, .nonFinite second => .nonFinite (if first = second then first else .nan)

/-- `first - second`. -/
def sub (first second : Number) : Number := add first (neg second)

/-- An infinity of the sign of a rational; zero times an infinity is no number. -/
def infinityOf (sign : ℚ) : NonFinite :=
  if 0 < sign then .infinity else if sign < 0 then .negativeInfinity else .nan

/-- The sign of an infinity, and zero for no number. -/
def signOf : NonFinite → ℚ
  | .infinity => 1
  | .negativeInfinity => -1
  | .nan => 0

/-- `first * second`. -/
def mul : Number → Number → Number
  | .finite first, .finite second => .finite (first * second)
  | .finite first, .nonFinite second => .nonFinite (infinityOf (first * signOf second))
  | .nonFinite first, .finite second => .nonFinite (infinityOf (signOf first * second))
  | .nonFinite first, .nonFinite second => .nonFinite (infinityOf (signOf first * signOf second))

/-- `first / second`; the sign of a zero divisor is not kept, for it raises. -/
def div : Number → Number → Except Raised Number
  | .finite first, .finite second =>
      if second = 0 then .error .zeroDivisionError else .ok (.finite (first / second))
  | .finite _, .nonFinite .nan => .ok (.nonFinite .nan)
  | .finite _, .nonFinite _ => .ok (.finite 0)
  | .nonFinite first, .finite second =>
      if second = 0 then .error .zeroDivisionError
      else .ok (.nonFinite (infinityOf (signOf first * second)))
  | .nonFinite _, .nonFinite _ => .ok (.nonFinite .nan)

/-- `round(x, places)`. -/
def round (places : ℕ) : Number → Number
  | .finite value => .finite (roundHalfEven places value)
  | .nonFinite value => .nonFinite value

/-! ## Small facts -/

section

variable {x y : Number} {first second bound : ℚ}

@[simp] theorem toValue_eq_float {value : ℚ} : x.toValue = .float value ↔ x = .finite value := by
  cases x <;> simp [toValue]

@[simp] theorem lt_finite : lt (.finite first) (.finite second) = decide (first < second) := rfl

@[simp] theorem le_finite : le (.finite first) (.finite second) = decide (first ≤ second) := rfl

@[simp] theorem mul_finite : mul (.finite first) (.finite second) = .finite (first * second) := rfl

@[simp] theorem round_finite (places : ℕ) :
    round places (.finite first) = .finite (roundHalfEven places first) := rfl

@[simp] theorem max_finite :
    Number.max (.finite first) (.finite second) = .finite (max first second) := by
  rw [Number.max, lt_finite]
  by_cases less : first < second
  · rw [if_pos (decide_eq_true less), max_eq_right less.le]
  · rw [if_neg (by simpa using less), max_eq_left (not_lt.mp less)]

@[simp] theorem min_finite :
    Number.min (.finite first) (.finite second) = .finite (min first second) := by
  rw [Number.min, lt_finite]
  by_cases less : second < first
  · rw [if_pos (decide_eq_true less), min_eq_right less.le]
  · rw [if_neg (by simpa using less), min_eq_left (not_lt.mp less)]

/-- A rational product has rational factors. -/
theorem mul_eq_finite {product : ℚ} :
    mul x y = .finite product ↔
      ∃ first second, x = .finite first ∧ y = .finite second ∧ product = first * second := by
  cases x <;> cases y <;> simp [mul, eq_comm]

/-- Rounding keeps what is no rational. -/
theorem round_eq_finite {places : ℕ} {rounded : ℚ} :
    round places x = .finite rounded ↔
      ∃ value, x = .finite value ∧ rounded = roundHalfEven places value := by
  cases x <;> simp [round, eq_comm]

end

end Number

/-! ## Bounds of rounded numbers -/

/-- The nearest integer, the even one of two. -/
def nearest (scaled : ℚ) : ℤ :=
  if scaled - ⌊scaled⌋ < 1 / 2 then ⌊scaled⌋
  else if 1 / 2 < scaled - ⌊scaled⌋ then ⌊scaled⌋ + 1
  else if ⌊scaled⌋ % 2 = 0 then ⌊scaled⌋ else ⌊scaled⌋ + 1

theorem roundHalfEven_eq_nearest (places : ℕ) (x : ℚ) :
    roundHalfEven places x = nearest (x * 10 ^ places) / 10 ^ places := rfl

/-- The nearest integer reaches an even one exactly from half a step below it. -/
theorem even_le_nearest_iff {scaled : ℚ} {multiple : ℤ} (even : multiple % 2 = 0) :
    multiple ≤ nearest scaled ↔ (multiple : ℚ) - 1 / 2 ≤ scaled := by
  have floor := Int.floor_le scaled
  have above := Int.lt_floor_add_one scaled
  rw [nearest]
  split_ifs with less more tie
  · refine ⟨fun reaches => ?_, fun close => ?_⟩
    · have : (multiple : ℚ) ≤ ⌊scaled⌋ := by exact_mod_cast reaches
      linarith
    · have : (multiple : ℚ) < ⌊scaled⌋ + 1 := by linarith
      have : multiple < ⌊scaled⌋ + 1 := by exact_mod_cast this
      omega
  · refine ⟨fun reaches => ?_, fun close => ?_⟩
    · have : (multiple : ℚ) ≤ ⌊scaled⌋ + 1 := by exact_mod_cast reaches
      linarith
    · have : (multiple : ℚ) < ⌊scaled⌋ + 2 := by linarith
      have : multiple < ⌊scaled⌋ + 2 := by exact_mod_cast this
      omega
  · refine ⟨fun reaches => ?_, fun close => ?_⟩
    · have : (multiple : ℚ) ≤ ⌊scaled⌋ := by exact_mod_cast reaches
      linarith
    · -- half a step above an even integer, so the next even one is out of reach
      have : (multiple : ℚ) ≤ ⌊scaled⌋ + 1 := by linarith
      have : multiple ≤ ⌊scaled⌋ + 1 := by exact_mod_cast this
      omega
  · refine ⟨fun reaches => ?_, fun close => ?_⟩
    · have : (multiple : ℚ) ≤ ⌊scaled⌋ + 1 := by exact_mod_cast reaches
      linarith
    · have : (multiple : ℚ) < ⌊scaled⌋ + 2 := by linarith
      have : multiple < ⌊scaled⌋ + 2 := by exact_mod_cast this
      omega

/-- The nearest integer stays below an even one exactly up to half a step above it. -/
theorem nearest_le_even_iff {scaled : ℚ} {multiple : ℤ} (even : multiple % 2 = 0) :
    nearest scaled ≤ multiple ↔ scaled ≤ (multiple : ℚ) + 1 / 2 := by
  have floor := Int.floor_le scaled
  have above := Int.lt_floor_add_one scaled
  rw [nearest]
  split_ifs with less more tie
  · refine ⟨fun below => ?_, fun close => ?_⟩
    · have : (⌊scaled⌋ : ℚ) ≤ multiple := by exact_mod_cast below
      linarith
    · have : (⌊scaled⌋ : ℚ) < multiple + 1 := by linarith
      have : ⌊scaled⌋ < multiple + 1 := by exact_mod_cast this
      omega
  · refine ⟨fun below => ?_, fun close => ?_⟩
    · have : (⌊scaled⌋ + 1 : ℚ) ≤ multiple := by exact_mod_cast below
      linarith
    · have : (⌊scaled⌋ : ℚ) < multiple := by linarith
      have : ⌊scaled⌋ < multiple := by exact_mod_cast this
      omega
  · refine ⟨fun below => ?_, fun close => ?_⟩
    · have : (⌊scaled⌋ : ℚ) ≤ multiple := by exact_mod_cast below
      linarith
    · have : (⌊scaled⌋ : ℚ) < multiple + 1 := by linarith
      have : ⌊scaled⌋ < multiple + 1 := by exact_mod_cast this
      omega
  · refine ⟨fun below => ?_, fun close => ?_⟩
    · have : (⌊scaled⌋ + 1 : ℚ) ≤ multiple := by exact_mod_cast below
      linarith
    · -- half a step above an odd integer, so the floor is not the even one itself
      have : (⌊scaled⌋ : ℚ) < multiple + 1 := by linarith
      have : ⌊scaled⌋ < multiple + 1 := by exact_mod_cast this
      omega

/-- The nearest integer is at most half a step above. -/
theorem nearest_le (scaled : ℚ) : (nearest scaled : ℚ) ≤ scaled + 1 / 2 := by
  have floor := Int.floor_le scaled
  rw [nearest]
  split_ifs with less more tie <;> push_cast <;> linarith

/-- A rounded number is at most half a place above. -/
theorem roundHalfEven_le (places : ℕ) (x : ℚ) :
    roundHalfEven places x ≤ x + 1 / 2 / 10 ^ places := by
  rw [roundHalfEven_eq_nearest, div_le_iff₀ (by positivity), add_mul,
    div_mul_cancel₀ _ (by positivity)]
  exact nearest_le _

/-- A rounded number reaches an even multiple of its last place from half a place below. -/
theorem even_le_roundHalfEven_iff {places : ℕ} {x : ℚ} {multiple : ℤ} (even : multiple % 2 = 0) :
    (multiple : ℚ) / 10 ^ places ≤ roundHalfEven places x ↔
      (multiple : ℚ) - 1 / 2 ≤ x * 10 ^ places := by
  rw [roundHalfEven_eq_nearest, div_le_div_iff_of_pos_right (by positivity), Int.cast_le,
    even_le_nearest_iff even]

/-- A rounded number stays below an even multiple of its last place up to half a place above. -/
theorem roundHalfEven_le_even_iff {places : ℕ} {x : ℚ} {multiple : ℤ} (even : multiple % 2 = 0) :
    roundHalfEven places x ≤ (multiple : ℚ) / 10 ^ places ↔
      x * 10 ^ places ≤ (multiple : ℚ) + 1 / 2 := by
  rw [roundHalfEven_eq_nearest, div_le_div_iff_of_pos_right (by positivity), Int.cast_le,
    nearest_le_even_iff even]

/-- A number rounded to six places lies between zero and one up to half a place. -/
theorem roundHalfEven_six_unit_iff {x : ℚ} :
    (0 ≤ roundHalfEven 6 x ∧ roundHalfEven 6 x ≤ 1) ↔
      -(5 / 10 ^ 7) ≤ x ∧ x ≤ 1 + 5 / 10 ^ 7 := by
  have low := @even_le_roundHalfEven_iff 6 x 0 rfl
  have high := @roundHalfEven_le_even_iff 6 x (10 ^ 6) rfl
  norm_num at low high ⊢
  rw [low, high]
  constructor <;> rintro ⟨first, second⟩ <;> constructor <;> linarith

/-- A number rounded to six places is positive above half a place. -/
theorem roundHalfEven_six_pos_iff {x : ℚ} : 0 < roundHalfEven 6 x ↔ 5 / 10 ^ 7 < x := by
  have low := @roundHalfEven_le_even_iff 6 x 0 rfl
  norm_num at low ⊢
  rw [← not_le, low, not_le]
  constructor <;> intro bound <;> linarith

end Python

/-!
# Order and error of rounded numbers

Rounding half to even keeps the order of numbers and moves each by at most half a place.
-/

namespace Python

/-! ## Nearest integers -/

/-- The nearest integer is at most half a step below. -/
theorem le_nearest (scaled : ℚ) : scaled - 1 / 2 ≤ (nearest scaled : ℚ) := by
  have above := Int.lt_floor_add_one scaled
  rw [nearest]
  split_ifs with less more tie <;> push_cast <;> linarith

theorem nearest_mono {first second : ℚ} (order : first ≤ second) :
    nearest first ≤ nearest second := by
  rcases order.eq_or_lt with rfl | strict
  · exact le_rfl
  · by_contra later
    have apart : (nearest second : ℚ) + 1 ≤ nearest first := by
      exact_mod_cast not_le.mp later
    have below := nearest_le first
    have above := le_nearest second
    linarith

theorem nearest_intCast (whole : ℤ) : nearest (whole : ℚ) = whole := by
  rw [nearest, Int.floor_intCast, sub_self, if_pos (by norm_num)]

/-! ## Rounded numbers -/

variable {places : ℕ} {x y : ℚ}

theorem roundHalfEven_mono (order : x ≤ y) : roundHalfEven places x ≤ roundHalfEven places y := by
  rw [roundHalfEven_eq_nearest, roundHalfEven_eq_nearest]
  have scaled : x * 10 ^ places ≤ y * 10 ^ places := by gcongr
  have reached : (nearest (x * 10 ^ places) : ℚ) ≤ nearest (y * 10 ^ places) := by
    exact_mod_cast nearest_mono scaled
  gcongr

theorem roundHalfEven_intCast (places : ℕ) (whole : ℤ) :
    roundHalfEven places (whole : ℚ) = whole := by
  have scaled : (whole : ℚ) * 10 ^ places = ((whole * 10 ^ places : ℤ) : ℚ) := by push_cast; rfl
  rw [roundHalfEven_eq_nearest, scaled, nearest_intCast]
  push_cast
  rw [mul_div_assoc, div_self (by positivity), mul_one]

theorem roundHalfEven_decimal (places : ℕ) (whole : ℤ) :
    roundHalfEven places ((whole : ℚ) / 10 ^ places) = whole / 10 ^ places := by
  rw [roundHalfEven_eq_nearest, div_mul_cancel₀ _ (by positivity), nearest_intCast]

@[simp] theorem roundHalfEven_zero (places : ℕ) : roundHalfEven places 0 = 0 := by
  simpa using roundHalfEven_intCast places 0

@[simp] theorem roundHalfEven_one (places : ℕ) : roundHalfEven places 1 = 1 := by
  simpa using roundHalfEven_intCast places 1

theorem roundHalfEven_nonneg (nonneg : 0 ≤ x) : 0 ≤ roundHalfEven places x := by
  simpa using roundHalfEven_mono nonneg

theorem roundHalfEven_nonpos (nonpos : x ≤ 0) : roundHalfEven places x ≤ 0 := by
  simpa using roundHalfEven_mono nonpos

theorem roundHalfEven_le_one (bounded : x ≤ 1) : roundHalfEven places x ≤ 1 := by
  simpa using roundHalfEven_mono bounded

/-- A rounded number is at most half a place below. -/
theorem le_roundHalfEven (places : ℕ) (x : ℚ) :
    x - 1 / 2 / 10 ^ places ≤ roundHalfEven places x := by
  rw [roundHalfEven_eq_nearest, le_div_iff₀ (by positivity), sub_mul,
    div_mul_cancel₀ _ (by positivity)]
  exact le_nearest _

theorem abs_roundHalfEven_sub_le (places : ℕ) (x : ℚ) :
    |roundHalfEven places x - x| ≤ 1 / 2 / 10 ^ places := by
  have below := roundHalfEven_le places x
  have above := le_roundHalfEven places x
  rw [abs_le]
  constructor <;> linarith

/-- Less than half a place above a decimal a number is not rounded past it. -/
theorem roundHalfEven_le_decimal {whole : ℤ} (near : x < (whole + 1 / 2) / 10 ^ places) :
    roundHalfEven places x ≤ whole / 10 ^ places := by
  rw [lt_div_iff₀ (by positivity)] at near
  have below := nearest_le (x * 10 ^ places)
  have least : nearest (x * 10 ^ places) < whole + 1 := by
    have strict : (nearest (x * 10 ^ places) : ℚ) < whole + 1 := by linarith
    exact_mod_cast strict
  have reached : (nearest (x * 10 ^ places) : ℚ) ≤ whole := by
    exact_mod_cast Int.lt_add_one_iff.mp least
  rw [roundHalfEven_eq_nearest]
  gcongr

/-- More than half a place above a decimal a number is rounded away from it. -/
theorem decimal_lt_roundHalfEven {whole : ℤ} (far : (whole + 1 / 2) / 10 ^ places < x) :
    whole / 10 ^ places < roundHalfEven places x := by
  have above := le_roundHalfEven places x
  rw [add_div] at far
  linarith

/-- A rounded number has the sign of the number or is zero. -/
theorem sign_roundHalfEven (places : ℕ) (x : ℚ) :
    sign (roundHalfEven places x) = sign x ∨ roundHalfEven places x = 0 := by
  rcases lt_trichotomy x 0 with negative | rfl | positive
  · rcases (@roundHalfEven_nonpos places x negative.le).eq_or_lt with zero | below
    · exact .inr zero
    · exact .inl (by simp [sign, negative, below, below.le.not_gt, negative.le.not_gt])
  · exact .inr (roundHalfEven_zero places)
  · rcases (@roundHalfEven_nonneg places x positive.le).eq_or_lt with zero | above
    · exact .inr zero.symm
    · exact .inl (by simp [sign, positive, above])

/-- The errors of rounded items add up. -/
theorem abs_sum_roundHalfEven_sub_le (places : ℕ) (values : List ℚ) :
    |(values.map (roundHalfEven places)).sum - values.sum| ≤
      values.length * (1 / 2 / 10 ^ places) := by
  induction values with
  | nil => simp
  | cons value values induction =>
      have first := abs_roundHalfEven_sub_le places value
      rw [List.map_cons, List.sum_cons, List.sum_cons, List.length_cons]
      calc |roundHalfEven places value + (values.map (roundHalfEven places)).sum -
              (value + values.sum)|
          = |(roundHalfEven places value - value) +
              ((values.map (roundHalfEven places)).sum - values.sum)| := by congr 1; ring
        _ ≤ |roundHalfEven places value - value| +
              |(values.map (roundHalfEven places)).sum - values.sum| := abs_add_le _ _
        _ ≤ 1 / 2 / 10 ^ places + values.length * (1 / 2 / 10 ^ places) :=
              add_le_add first induction
        _ = ((values.length + 1 : ℕ) : ℚ) * (1 / 2 / 10 ^ places) := by push_cast; ring

end Python
