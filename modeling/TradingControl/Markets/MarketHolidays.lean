import Mathlib.Data.Finset.Card
import Mathlib.Data.Int.Interval
import TradingControl.Python.Calendar

/-!
# Market holidays

The exchange closes for whole days on holidays that fall on fixed dates, on the third Monday or the
fourth Thursday of a month, or two days before Easter, and early on a few others.
-/

namespace TradingControl.Markets

open Python.Calendar

/-! ## Easter -/

/-- What `_easter` names `h`: how many days the full moon is past the twenty-first of March. -/
def moonAge (year : ℤ) : ℤ :=
  let a := year % 19
  let b := year / 100
  let d := b / 4
  let f := (b + 8) / 25
  let g := (b - f + 1) / 3
  (19 * a + b - d - g + 15) % 30

/-- What `_easter` names `lp`: the days from the day after the full moon to a Sunday. -/
def sundayOffset (year : ℤ) : ℤ :=
  let b := year / 100
  let c := year % 100
  let e := b % 4
  let i := c / 4
  let k := c % 4
  (32 + 2 * e + 2 * i - moonAge year - k) % 7

/-- `_easter`, as the month and the day. -/
def easterMonthDay (year : ℤ) : ℤ × ℤ :=
  let a := year % 19
  let h := moonAge year
  let lp := sundayOffset year
  let mp := (a + 11 * h + 22 * lp) / 451
  ((h + lp - 7 * mp + 114) / 31, (h + lp - 7 * mp + 114) % 31 + 1)

/-- `_easter`. -/
def easter (year : ℤ) : ℤ :=
  let (month, day) := easterMonthDay year
  date year month.toNat day

variable (year : ℤ)

theorem moonAge_range : 0 ≤ moonAge year ∧ moonAge year < 30 := by
  simp only [moonAge]
  omega

theorem sundayOffset_range : 0 ≤ sundayOffset year ∧ sundayOffset year < 7 := by
  simp only [sundayOffset]
  omega

/-- The full moon that Easter follows, counted by the golden number and the two equations of the
century, one for the leap days it leaves out and one for the drift of the moon.  The two latest
moons count a day earlier. -/
def paschalMoon : ℤ :=
  let century := year / 100
  let age := (19 * (year % 19) + 15 + (century - century / 4) - (8 * century + 13) / 25) % 30
  date year 3 21 + age - if age = 29 ∨ age = 28 ∧ 10 < year % 19 then 1 else 0

theorem paschalMoon_eq : paschalMoon year = date year 3 21 + moonAge year -
    if moonAge year = 29 ∨ moonAge year = 28 ∧ 10 < year % 19 then 1 else 0 := by
  have drift : (year / 100 - (year / 100 + 8) / 25 + 1) / 3 = (8 * (year / 100) + 13) / 25 := by
    omega
  have age : moonAge year = (19 * (year % 19) + 15 + (year / 100 - year / 100 / 4) -
      (8 * (year / 100) + 13) / 25) % 30 := by
    simp only [moonAge, drift]
    omega
  rw [age, paschalMoon]

/-- The day that follows the full moon by the offset is a Sunday. -/
theorem weekday_sundayOffset :
    weekday (date year 3 22 + moonAge year + sundayOffset year) = 6 := by
  have counted := daysBeforeYear_add_leapDays year
  have quarters : year / 4 = 25 * (year / 100) + year % 100 / 4 := by omega
  have centuries : year / 400 = year / 100 / 4 := by omega
  rw [weekday, date_late year 22 (by decide)]
  simp only [sundayOffset, daysBefore]
  omega

/-- Only the two latest moons that fall on a Sunday are taken a week back. -/
theorem easter_eq : easter year = date year 3 22 + moonAge year + sundayOffset year -
    if sundayOffset year = 6 ∧ (moonAge year = 29 ∨ moonAge year = 28 ∧ 10 < year % 19)
    then 7 else 0 := by
  obtain ⟨new, old⟩ := moonAge_range year
  obtain ⟨next, week⟩ := sundayOffset_range year
  have cycle : 0 ≤ year % 19 ∧ year % 19 < 19 := by omega
  have correction : (year % 19 + 11 * moonAge year + 22 * sundayOffset year) / 451 =
      if sundayOffset year = 6 ∧ (moonAge year = 29 ∨ moonAge year = 28 ∧ 10 < year % 19)
      then 1 else 0 := by
    split <;> omega
  have march : date year 3 22 = daysBeforeYear year + 59 + leapDays year + 22 :=
    date_late year 22 (by decide)
  simp only [easter, easterMonthDay, correction]
  generalize settled : moonAge year + sundayOffset year -
    7 * (if sundayOffset year = 6 ∧ (moonAge year = 29 ∨ moonAge year = 28 ∧ 10 < year % 19)
      then 1 else 0) = days
  have within : 0 ≤ days ∧ days ≤ 34 := by
    split at settled <;> omega
  by_cases early : days ≤ 9
  · have month : (days + 114) / 31 = 3 := by omega
    rw [month, show Int.toNat 3 = 3 from rfl, date_late year _ (by decide)]
    simp only [daysBefore]
    split at settled <;> split <;> omega
  · have month : (days + 114) / 31 = 4 := by omega
    rw [month, show Int.toNat 4 = 4 from rfl, date_late year _ (by decide)]
    simp only [daysBefore]
    split at settled <;> split <;> omega

/-- Easter is the first Sunday after its full moon. -/
theorem easter_follows_moon : weekday (easter year) = 6 ∧ paschalMoon year < easter year ∧
    easter year ≤ paschalMoon year + 7 := by
  have sunday := weekday_sundayOffset year
  obtain ⟨next, week⟩ := sundayOffset_range year
  have march : date year 3 22 = date year 3 21 + 1 := by
    simp only [date, Int.add_assoc]
    rfl
  rw [weekday] at sunday
  rw [easter_eq, paschalMoon_eq, weekday]
  split <;> split <;> omega

/-! ## Rules of the exchange -/

/-- `_nth_weekday`. -/
def nthWeekday (year : ℤ) (month : ℕ) (day n : ℤ) : ℤ :=
  let first := date year month 1
  let offset := (day - weekday first) % 7
  first + offset + 7 * (n - 1)

/-- `_last_weekday`. -/
def lastWeekday (year : ℤ) (month : ℕ) (day : ℤ) : ℤ :=
  let next := if month = 12 then date (year + 1) 1 1 else date year (month + 1) 1
  let last := next - 1
  last - (weekday last - day) % 7

/-- `_observed`. -/
def observed (holiday : ℤ) : ℤ :=
  if weekday holiday = 5 then holiday - 1
  else if weekday holiday = 6 then holiday + 1
  else holiday

theorem nthWeekday_spec (month : ℕ) (day n : ℤ) (least : 0 ≤ day) (most : day < 7) :
    weekday (nthWeekday year month day n) = day ∧
      date year month 1 + 7 * (n - 1) ≤ nthWeekday year month day n ∧
      nthWeekday year month day n ≤ date year month 1 + 7 * (n - 1) + 6 := by
  simp only [nthWeekday, weekday]
  omega

theorem lastWeekday_spec {month : ℕ} (day : ℤ) (least : 0 ≤ day) (most : day < 7)
    (before : month ≠ 12) :
    weekday (lastWeekday year month day) = day ∧
      date year (month + 1) 1 - 7 ≤ lastWeekday year month day ∧
      lastWeekday year month day ≤ date year (month + 1) 1 - 1 := by
  simp only [lastWeekday, if_neg before, weekday]
  omega

theorem observed_spec (holiday : ℤ) :
    weekday (observed holiday) < 5 ∧ holiday - 1 ≤ observed holiday ∧
      observed holiday ≤ holiday + 1 := by
  have week := weekday_range holiday
  rw [observed]
  split
  · rw [weekday] at *
    omega
  · split <;> rw [weekday] at * <;> omega

/-- `_JUNETEENTH_FIRST_YEAR`. -/
def juneteenthFirstYear : ℤ := 2022

/-- `market_holidays`, in the order of the source. -/
def holidayList (year : ℤ) : List ℤ :=
  [observed (date year 1 1), nthWeekday year 1 0 3, nthWeekday year 2 0 3, easter year - 2,
    lastWeekday year 5 0, nthWeekday year 9 0 1, nthWeekday year 11 3 4, observed (date year 7 4),
    observed (date year 12 25)] ++
  if juneteenthFirstYear ≤ year then [observed (date year 6 19)] else []

/-- `market_holidays`. -/
def marketHolidays (year : ℤ) : Finset ℤ := (holidayList year).toFinset

/-- `early_close_days`. -/
def earlyCloseDays (year : ℤ) : Finset ℤ :=
  let holidays := marketHolidays year
  let eve := date year 12 24
  let july3 := date year 7 3
  ({nthWeekday year 11 3 4 + 1} ∪
    if weekday eve < 5 ∧ eve ∉ holidays then {eve} else ∅) ∪
    if weekday july3 < 5 ∧ july3 ∉ holidays then {july3} else ∅

/-! ## Places of the holidays in the year -/

/-- A weekday between two days. -/
structure Falls (first last holiday : ℤ) : Prop where
  weekday : weekday holiday < 5
  first : first ≤ holiday
  last : holiday ≤ last

theorem falls_observed (holiday : ℤ) :
    Falls (holiday - 1) (holiday + 1) (observed holiday) := by
  obtain ⟨working, first, last⟩ := observed_spec holiday
  exact ⟨working, first, last⟩

theorem falls_nthWeekday (year : ℤ) (month : ℕ) {day : ℤ} (n : ℤ) (least : 0 ≤ day)
    (working : day < 5) :
    Falls (date year month 1 + 7 * (n - 1)) (date year month 1 + 7 * (n - 1) + 6)
      (nthWeekday year month day n) := by
  obtain ⟨onDay, first, last⟩ := nthWeekday_spec year month day n least (by omega)
  exact ⟨by omega, first, last⟩

theorem falls_lastWeekday (year : ℤ) {month : ℕ} {day : ℤ} (least : 0 ≤ day) (working : day < 5)
    (before : month ≠ 12) :
    Falls (date year (month + 1) 1 - 7) (date year (month + 1) 1 - 1)
      (lastWeekday year month day) := by
  obtain ⟨onDay, first, last⟩ := lastWeekday_spec year day least (by omega) before
  exact ⟨by omega, first, last⟩

theorem falls_goodFriday (year : ℤ) :
    Falls (date year 3 20) (date year 3 20 + 34) (easter year - 2) := by
  obtain ⟨sunday, after, within⟩ := easter_follows_moon year
  obtain ⟨new, old⟩ := moonAge_range year
  have equinox : date year 3 21 = date year 3 20 + 1 := by
    simp only [date, Int.add_assoc]
    rfl
  have moon : date year 3 20 < paschalMoon year ∧ paschalMoon year ≤ date year 3 20 + 29 := by
    rw [paschalMoon_eq, equinox]
    split <;> omega
  refine ⟨?_, by omega, by omega⟩
  rw [weekday] at sunday ⊢
  omega

/-- Where the holidays of a year fall, from March on with the leap day before them. -/
structure Places (year start late : ℤ) : Prop where
  newYear : Falls start (start + 2) (observed (date year 1 1))
  king : Falls (start + 15) (start + 21) (nthWeekday year 1 0 3)
  washington : Falls (start + 46) (start + 52) (nthWeekday year 2 0 3)
  goodFriday : Falls (late + 79) (late + 113) (easter year - 2)
  memorial : Falls (late + 145) (late + 151) (lastWeekday year 5 0)
  labor : Falls (late + 244) (late + 250) (nthWeekday year 9 0 1)
  thanksgiving : Falls (late + 326) (late + 332) (nthWeekday year 11 3 4)
  independence : Falls (late + 184) (late + 186) (observed (date year 7 4))
  christmas : Falls (late + 358) (late + 360) (observed (date year 12 25))
  juneteenth : Falls (late + 169) (late + 171) (observed (date year 6 19))

theorem Falls.within {first last earlier later holiday : ℤ} (falls : Falls first last holiday)
    (before : earlier ≤ first) (after : last ≤ later) : Falls earlier later holiday :=
  ⟨falls.weekday, before.trans falls.first, falls.last.trans after⟩

theorem places (year : ℤ) :
    Places year (daysBeforeYear year) (daysBeforeYear year + leapDays year) := by
  have january : date year 1 1 = daysBeforeYear year + 0 + 1 := date_early year 1 (by decide)
  have february : date year 2 1 = daysBeforeYear year + 31 + 1 := date_early year 1 (by decide)
  have late (month : ℕ) (day : ℤ) (after : 2 < month) :
      date year month day = daysBeforeYear year + daysBefore month + leapDays year + day :=
    date_late year day after
  refine ⟨(falls_observed _).within ?_ ?_,
    (falls_nthWeekday year 1 3 (by decide) (by decide)).within ?_ ?_,
    (falls_nthWeekday year 2 3 (by decide) (by decide)).within ?_ ?_,
    (falls_goodFriday year).within ?_ ?_,
    (falls_lastWeekday year (by decide) (by decide) (by decide)).within ?_ ?_,
    (falls_nthWeekday year 9 1 (by decide) (by decide)).within ?_ ?_,
    (falls_nthWeekday year 11 4 (by decide) (by decide)).within ?_ ?_,
    (falls_observed _).within ?_ ?_, (falls_observed _).within ?_ ?_,
    (falls_observed _).within ?_ ?_⟩
  all_goals simp only [january, february, late, Nat.reduceAdd, Nat.reduceLT, daysBefore]
  all_goals omega

/-- Two holidays of a year are at least five days apart. -/
theorem holidayList_apart (year : ℤ) : (holidayList year).Pairwise fun holiday other =>
    holiday + 5 ≤ other ∨ other + 5 ≤ holiday := by
  obtain ⟨⟨-, a, a'⟩, ⟨-, b, b'⟩, ⟨-, c, c'⟩, ⟨-, d, d'⟩, ⟨-, e, e'⟩, ⟨-, f, f'⟩, ⟨-, g, g'⟩,
    ⟨-, h, h'⟩, ⟨-, i, i'⟩, ⟨-, j, j'⟩⟩ := places year
  obtain ⟨common, leap⟩ := leapDays_range year
  rw [holidayList]
  split <;> simp only [List.pairwise_cons, List.cons_append, List.nil_append, List.mem_cons,
    forall_eq_or_imp, List.not_mem_nil, false_imp_iff, forall_const, List.Pairwise.nil,
    and_true] <;> omega

theorem mem_marketHolidays {year day : ℤ} : day ∈ marketHolidays year ↔ day ∈ holidayList year :=
  List.mem_toFinset

theorem weekday_holiday {year holiday : ℤ} (closed : holiday ∈ marketHolidays year) :
    weekday holiday < 5 := by
  obtain ⟨⟨a⟩, ⟨b⟩, ⟨c⟩, ⟨d⟩, ⟨e⟩, ⟨f⟩, ⟨g⟩, ⟨h⟩, ⟨i⟩, ⟨j⟩⟩ := places year
  rw [mem_marketHolidays, holidayList] at closed
  split at closed <;> simp only [List.cons_append, List.nil_append, List.mem_cons,
    List.not_mem_nil, or_false] at closed <;> rcases closed with
      rfl | rfl | rfl | rfl | rfl | rfl | rfl | rfl | rfl | rfl <;> assumption

theorem holidays_apart {year holiday other : ℤ} (closed : holiday ∈ marketHolidays year)
    (alsoClosed : other ∈ marketHolidays year) (different : holiday ≠ other) :
    holiday + 5 ≤ other ∨ other + 5 ≤ holiday := by
  have symmetric : Std.Symm fun holiday other : ℤ => holiday + 5 ≤ other ∨ other + 5 ≤ holiday :=
    ⟨fun _ _ => Or.symm⟩
  exact (holidayList_apart year).forall (mem_marketHolidays.mp closed)
    (mem_marketHolidays.mp alsoClosed) different

/-- Ten holidays a year since Juneteenth is one, nine before. -/
theorem card_marketHolidays (year : ℤ) :
    (marketHolidays year).card = if juneteenthFirstYear ≤ year then 10 else 9 := by
  have distinct : (holidayList year).Nodup :=
    (holidayList_apart year).imp fun apart => by omega
  rw [marketHolidays, List.toFinset_card_of_nodup distinct, holidayList]
  split <;> rfl

/-- Only New Year's Day can be observed outside its year, and none is after Christmas. -/
theorem holiday_range {year holiday : ℤ} (closed : holiday ∈ marketHolidays year) :
    (holiday = observed (date year 1 1) ∨ date year 1 1 ≤ holiday) ∧
      holiday ≤ date year 12 26 := by
  obtain ⟨⟨-, a, a'⟩, ⟨-, b, b'⟩, ⟨-, c, c'⟩, ⟨-, d, d'⟩, ⟨-, e, e'⟩, ⟨-, f, f'⟩, ⟨-, g, g'⟩, ⟨-, h, h'⟩,
    ⟨-, i, i'⟩, ⟨-, j, j'⟩⟩ := places year
  obtain ⟨common, leap⟩ := leapDays_range year
  have first : date year 1 1 = daysBeforeYear year + 0 + 1 := date_early year 1 (by decide)
  have last : date year 12 26 = daysBeforeYear year + 334 + leapDays year + 26 :=
    date_late year 26 (by decide)
  rw [mem_marketHolidays, holidayList] at closed
  split at closed <;> simp only [List.cons_append, List.nil_append, List.mem_cons,
    List.not_mem_nil, or_false] at closed <;> omega

/-- The holidays inside their own year: all but a New Year's Day that is a Saturday. -/
theorem card_holidaysInYear (year : ℤ) :
    ((marketHolidays year).filter fun day => date year 1 1 ≤ day ∧ day ≤ date year 12 31).card =
      (if juneteenthFirstYear ≤ year then 10 else 9) -
        if weekday (date year 1 1) = 5 then 1 else 0 := by
  have closes : observed (date year 1 1) ∈ marketHolidays year := by
    rw [mem_marketHolidays, holidayList]
    exact List.mem_append_left _ List.mem_cons_self
  have december : date year 12 31 = date year 12 26 + 5 := by
    simp only [date, Int.add_assoc]
    rfl
  have follows : date year 1 1 + 1 ≤ date year 12 26 := by
    obtain ⟨common, leap⟩ := leapDays_range year
    rw [date_early year 1 (by decide), date_late year 26 (by decide)]
    simp only [daysBefore]
    omega
  rw [← card_marketHolidays]
  by_cases saturday : weekday (date year 1 1) = 5
  · have before : observed (date year 1 1) = date year 1 1 - 1 := if_pos saturday
    rw [if_pos saturday, ← Finset.card_erase_of_mem closes]
    refine congrArg Finset.card (Finset.ext fun day => ?_)
    simp only [Finset.mem_filter, Finset.mem_erase]
    constructor
    · rintro ⟨closed, first, -⟩
      exact ⟨by omega, closed⟩
    · rintro ⟨other, closed⟩
      obtain ⟨newYear | first, last⟩ := holiday_range closed
      · exact absurd newYear other
      · exact ⟨closed, first, by omega⟩
  · have later : date year 1 1 ≤ observed (date year 1 1) ∧
        observed (date year 1 1) ≤ date year 1 1 + 1 := by
      rw [observed, if_neg saturday]
      split <;> omega
    rw [if_neg saturday, Nat.sub_zero]
    refine congrArg Finset.card (Finset.filter_eq_self.mpr fun day closed => ?_)
    obtain ⟨newYear | first, last⟩ := holiday_range closed <;> omega

theorem not_mem_of_near {year holiday day : ℤ} (closed : holiday ∈ marketHolidays year)
    (after : holiday < day) (near : day < holiday + 5) : day ∉ marketHolidays year := by
  intro alsoClosed
  rcases holidays_apart closed alsoClosed (by omega) with apart | apart <;> omega

end TradingControl.Markets
