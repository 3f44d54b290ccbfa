import Mathlib.Data.Set.Card
import TradingControl.Effects.History
import TradingControl.Effects.WindowLog
import TradingControl.Markets.MarketHolidays
import TradingControl.Python.Runtime

/-!
# Market status

The one clock that says whether the stock market is open.  It computes from the time in New York and
keeps what it computed for a while; windows of the day are read from the texts of an operator.
-/

namespace TradingControl.Markets

open Python Python.Calendar WindowLog

/-! ## Sessions -/

/-- `MarketState`. -/
inductive MarketState where
  | open
  | premarket
  | afterHours
  | closed
  | holiday
deriving DecidableEq, Repr

/-- The microseconds of a day. -/
def dayLength : ℕ := 24 * 60 * 60 * 1000000

/-- `time(hour, minute)`, in microseconds. -/
def time (hour minute : ℕ) : ℕ := (60 * hour + minute) * (60 * 1000000)

/-- An aware `datetime` in New York, with the date as a number. -/
structure EasternTime where
  year : ℤ
  date : ℤ
  time : ℕ
  inYear : Calendar.date year 1 1 ≤ date ∧ date ≤ Calendar.date year 12 31
  inDay : time < dayLength

/-- `_REGULAR_OPEN`. -/
def regularOpen : ℕ := time 9 30
/-- `_REGULAR_CLOSE`. -/
def regularClose : ℕ := time 16 0
/-- `_EARLY_CLOSE`. -/
def earlyClose : ℕ := time 13 0
/-- `_PREMARKET_OPEN`. -/
def premarketOpen : ℕ := time 4 0
/-- `_AFTER_HOURS_END`. -/
def afterHoursEnd : ℕ := time 20 0
/-- `_CACHE_TTL_SECONDS`. -/
def cacheTtlSeconds : ℚ := 30

/-- `_compute`. -/
def compute (now : EasternTime) : MarketState :=
  if 5 ≤ weekday now.date then .closed
  else if now.date ∈ marketHolidays now.year then .holiday
  else
    let close := if now.date ∈ earlyCloseDays now.year then earlyClose else regularClose
    if regularOpen ≤ now.time ∧ now.time < close then .open
    else if premarketOpen ≤ now.time ∧ now.time < regularOpen then .premarket
    else if close ≤ now.time ∧ now.time < afterHoursEnd then .afterHours
    else .closed

/-- The market has a session on the day. -/
def Trades (now : EasternTime) : Prop :=
  weekday now.date < 5 ∧ now.date ∉ marketHolidays now.year

theorem compute_eq_holiday {now : EasternTime} :
    compute now = .holiday ↔ now.date ∈ marketHolidays now.year := by
  rw [compute]
  constructor
  · intro holiday
    split at holiday
    case isTrue => cases holiday
    case isFalse =>
      split at holiday
      case isTrue closed => exact closed
      case isFalse =>
        dsimp only at holiday
        repeat' (split at holiday)
        all_goals cases holiday
  · intro closed
    have working := weekday_holiday closed
    rw [if_neg (by omega), if_pos closed]

/-- On a day with a session, the market is open until the early close at least. -/
theorem compute_open {now : EasternTime} (trades : Trades now) (opened : regularOpen ≤ now.time)
    (before : now.time < earlyClose) : compute now = .open := by
  obtain ⟨working, noHoliday⟩ := trades
  have close : now.time < if now.date ∈ earlyCloseDays now.year then earlyClose else regularClose := by
    split
    · exact before
    · exact before.trans (by decide)
  rw [compute, if_neg (by omega), if_neg noHoliday]
  exact if_pos ⟨opened, close⟩

/-! ## Holidays of a year -/

/-- The dates of a year on which the market is closed for a holiday all day. -/
def closedDates (year : ℤ) : Set ℤ :=
  {date | ∃ now : EasternTime, now.year = year ∧ now.date = date ∧ compute now = .holiday}

theorem newYear_after (year : ℤ) : date (year + 1) 1 1 = date year 12 31 + 1 := by
  rw [date_early (year + 1) 1 (by decide), date_late year 31 (by decide), daysBeforeYear_succ]
  simp only [daysBefore]
  omega

/-- The moment of another date, of the same year or the next. -/
theorem exists_later (now : EasternTime) (days : ℤ) (later : 0 ≤ days) (soon : days ≤ 3) :
    ∃ other : EasternTime, other.date = now.date + days ∧
      (other.year = now.year ∨ other.year = now.year + 1) := by
  obtain ⟨first, last⟩ := now.inYear
  by_cases within : now.date + days ≤ date now.year 12 31
  · exact ⟨⟨now.year, now.date + days, now.time, ⟨by omega, within⟩, now.inDay⟩, rfl, .inl rfl⟩
  · have newYear := newYear_after now.year
    have length : date (now.year + 1) 12 31 = date (now.year + 1) 1 1 + 364 +
        leapDays (now.year + 1) := by
      rw [date_early _ 1 (by decide), date_late _ 31 (by decide)]
      simp only [daysBefore]
      omega
    have leap := leapDays_range (now.year + 1)
    exact ⟨⟨now.year + 1, now.date + days, now.time, ⟨by omega, by omega⟩, now.inDay⟩, rfl,
      .inr rfl⟩

/-- No two holidays, of one year or of two, are within three days. -/
theorem trades_of_near {early late : EasternTime} (closed : early.date ∈ marketHolidays early.year)
    (sameYear : late.year = early.year ∨ late.year = early.year + 1)
    (after : early.date < late.date) (near : late.date ≤ early.date + 3) :
    late.date ∉ marketHolidays late.year := by
  rcases sameYear with year | year
  · rw [year]
    exact not_mem_of_near closed after (by omega)
  · exfalso
    have newYear := newYear_after early.year
    obtain ⟨first, last⟩ := late.inYear
    rw [year] at first
    have christmas : date early.year 12 31 = date early.year 12 26 + 5 := by
      simp only [date, Int.add_assoc]
      rfl
    have before := (holiday_range closed).2
    omega

/-- Of any four days in a row, one has a session that is open until the early close at least. -/
theorem opens_within_four_days (now : EasternTime) :
    ∃ later : EasternTime, now.date ≤ later.date ∧ later.date ≤ now.date + 3 ∧
      ∀ moment (inDay : moment < dayLength), regularOpen ≤ moment → moment < earlyClose →
        compute { later with time := moment, inDay } = .open := by
  have workdays : ∃ first second : ℤ, 0 ≤ first ∧ first < second ∧ second ≤ 3 ∧
      weekday (now.date + first) < 5 ∧ weekday (now.date + second) < 5 := by
    simp only [weekday]
    rcases (by omega : (now.date + 6) % 7 ≤ 3 ∨ (now.date + 6) % 7 = 4 ∨ (now.date + 6) % 7 = 5 ∨
      (now.date + 6) % 7 = 6) with early | friday | saturday | sunday
    · exact ⟨0, 1, by omega⟩
    · exact ⟨0, 3, by omega⟩
    · exact ⟨2, 3, by omega⟩
    · exact ⟨1, 2, by omega⟩
  obtain ⟨first, second, start, ordered, stop, firstWorks, secondWorks⟩ := workdays
  obtain ⟨early, earlyDate, earlyYear⟩ := exists_later now first start (by omega)
  by_cases closed : early.date ∈ marketHolidays early.year
  · -- the second day is then no holiday
    obtain ⟨late, lateDate, lateYear⟩ := exists_later early (second - first) (by omega) (by omega)
    have opens := trades_of_near closed lateYear (by omega) (by omega)
    refine ⟨late, by omega, by omega, fun moment inDay opened before => ?_⟩
    refine compute_open ⟨?_, opens⟩ opened before
    rw [show late.date = now.date + second by omega]
    exact secondWorks
  · refine ⟨early, by omega, by omega, fun moment inDay opened before => ?_⟩
    refine compute_open ⟨?_, closed⟩ opened before
    rw [earlyDate]
    exact firstWorks

/-! ## Windows of the day -/

/-- `_parse_hhmm`. -/
def parseHhmm (runtime : Runtime) (value : Option String) : Option ℕ :=
  match value with
  | none | some "" => none
  | some value =>
      match split ':' (strip value) with
      | [first, second] =>
          match runtime.parseInt first, runtime.parseInt second with
          | some hour, some minute =>
              if 0 ≤ hour ∧ hour ≤ 23 ∧ 0 ≤ minute ∧ minute ≤ 59 then
                some (time hour.toNat minute.toNat)
              else none
          | _, _ => none
      | _ => none

/-- `is_within_window`. -/
def isWithinWindow (runtime : Runtime) (startHhmm endHhmm : Option String) (now : EasternTime) :
    Bool :=
  match parseHhmm runtime startHhmm, parseHhmm runtime endHhmm with
  | some start, some stop =>
      if start = stop then false
      else if start < stop then start ≤ now.time ∧ now.time < stop
      else start ≤ now.time ∨ now.time < stop
  | _, _ => false

/-- A time on the way around the clock from a start to before a stop. -/
def OnArc (start stop moment : ℤ) : Prop :=
  (moment - start) % dayLength < (stop - start) % dayLength

variable {runtime : Runtime} {value startHhmm endHhmm : Option String} {start stop : ℕ}

theorem parseHhmm_lt (parsed : parseHhmm runtime value = some start) : start < dayLength := by
  unfold parseHhmm at parsed
  repeat' (split at parsed)
  all_goals cases parsed
  simp only [time, dayLength]
  omega

theorem onArc_iff {start stop moment : ℕ} (first : start < dayLength) (last : stop < dayLength)
    (inDay : moment < dayLength) : OnArc start stop moment ↔
      if start ≤ stop then start ≤ moment ∧ moment < stop else start ≤ moment ∨ moment < stop := by
  rw [OnArc]
  rw [dayLength] at *
  split <;> omega

/-- A window is the way around the clock from its start to its end; what is no text of a time, or
no way at all, holds nothing. -/
theorem isWithinWindow_iff {now : EasternTime} :
    isWithinWindow runtime startHhmm endHhmm now = true ↔
      ∃ start stop, parseHhmm runtime startHhmm = some start ∧
        parseHhmm runtime endHhmm = some stop ∧ OnArc start stop now.time := by
  rw [isWithinWindow]
  cases parsed : parseHhmm runtime startHhmm with
  | none => simp
  | some start =>
      cases alsoParsed : parseHhmm runtime endHhmm with
      | none => simp
      | some stop =>
          have arc := onArc_iff (parseHhmm_lt parsed) (parseHhmm_lt alsoParsed) now.inDay
          simp only [Option.some.injEq, existsAndEq, true_and, arc]
          rcases Nat.lt_trichotomy start stop with before | rfl | after
          · simp [before, before.le, before.ne]
          · simp
          · simp [after.not_gt, after.not_ge, after.ne']

/-! ## Cached states -/

/-- `MarketStatusService`. -/
structure MarketStatusService where
  cachedState : Option MarketState := none
  cachedAt : ℚ := 0

/-- A call on the live path: what the monotonic clock and the clock in New York say. -/
structure Asked where
  monotonic : ℚ
  now : EasternTime

namespace MarketStatusService

variable (service : MarketStatusService) (asked : Asked)

/-- Nothing is kept, or it has been kept too long. -/
def expired : Bool :=
  service.cachedState = none ∨ cacheTtlSeconds ≤ asked.monotonic - service.cachedAt

/-- What a call leaves in the cache. -/
def refreshed : MarketStatusService :=
  if service.expired asked then ⟨some (compute asked.now), asked.monotonic⟩ else service

/-- `state` on the live path. -/
def state : MarketState := (service.refreshed asked).cachedState.getD .closed

/-- `is_open`. -/
def isOpen : Bool := service.state asked = .open

/-- `is_symbol_open`. -/
def isSymbolOpen (symbol : Option String) : Bool :=
  contains (symbol.getD "") "/" || service.isOpen asked

/-- What is kept was computed by a call. -/
def KeepsAnswer (calls : List Asked) : Prop :=
  ∀ state, service.cachedState = some state →
    ∃ call ∈ calls, call.monotonic = service.cachedAt ∧ compute call.now = state

/-- An answer is the state of a call that was made shortly before, or of this one. -/
def Recent (calls : List Asked) (answer : MarketState) : Prop :=
  ∃ call ∈ calls ++ [asked], asked.monotonic - cacheTtlSeconds < call.monotonic ∧
    compute call.now = answer

theorem state_isSome : ∃ state, (service.refreshed asked).cachedState = some state := by
  rw [refreshed]
  split
  case isTrue => exact ⟨_, rfl⟩
  case isFalse kept =>
    refine Option.ne_none_iff_exists'.mp fun missing => kept ?_
    exact decide_eq_true (.inl missing)

variable {service asked} {calls : List Asked}

theorem KeepsAnswer.refreshed (keeps : service.KeepsAnswer calls) :
    (service.refreshed asked).KeepsAnswer (calls ++ [asked]) := by
  intro state cached
  rw [MarketStatusService.refreshed] at cached ⊢
  split at cached
  case isTrue expired =>
    rw [if_pos expired]
    exact ⟨asked, by simp, rfl, Option.some.inj cached⟩
  case isFalse kept =>
    rw [if_neg kept]
    obtain ⟨call, member, computed⟩ := keeps state cached
    exact ⟨call, List.mem_append_left _ member, computed⟩

theorem KeepsAnswer.recent (keeps : service.KeepsAnswer calls) :
    Recent asked calls (service.state asked) := by
  obtain ⟨state, cached⟩ := state_isSome service asked
  obtain ⟨call, member, at', computed⟩ := keeps.refreshed state cached
  refine ⟨call, member, ?_, by rw [MarketStatusService.state, cached, computed, Option.getD_some]⟩
  rw [at', MarketStatusService.refreshed]
  split
  case isTrue =>
    rw [cacheTtlSeconds]
    exact sub_lt_self _ (by norm_num)
  case isFalse kept =>
    have young := (not_or.mp (of_decide_eq_false (Bool.eq_false_iff.mpr kept))).2
    linarith

end MarketStatusService

/-- The service and the times at which it computed a state. -/
structure Clock where
  service : MarketStatusService := {}
  computed : List ℚ := []

namespace Clock

/-- A call of `state`. -/
def ask (clock : Clock) (asked : Asked) : Clock where
  service := clock.service.refreshed asked
  computed := clock.computed ++ if clock.service.expired asked then [asked.monotonic] else []

def run (calls : List Asked) : Clock := calls.foldl ask {}

theorem run_concat (calls : List Asked) (asked : Asked) :
    run (calls ++ [asked]) = (run calls).ask asked := by
  rw [run, List.foldl_concat]
  rfl

theorem run_keepsAnswer (calls : List Asked) : (run calls).service.KeepsAnswer calls := by
  induction calls using List.reverseRecOn with
  | nil =>
      intro state cached
      cases cached
  | append_singleton calls asked induction =>
      rw [run_concat]
      exact induction.refreshed

/-- The states were computed one life of the cache apart, the kept one last. -/
structure Computes (clock : Clock) : Prop where
  spaced : Spaced cacheTtlSeconds 1 clock.computed
  follows : clock.computed = [] ∨
    Follows cacheTtlSeconds clock.service.cachedAt [clock.service.cachedAt] clock.computed
  kept : clock.service.cachedState = none → clock.computed = []

/-- When a state expires, no state has been computed for one life of the cache. -/
theorem Computes.rested {clock : Clock} (computes : clock.Computes) {asked : Asked}
    (expired : clock.service.expired asked = true) :
    Follows cacheTtlSeconds asked.monotonic [] clock.computed := by
  rcases computes.follows with none' | follows
  · rw [none']
    exact follows_nil
  rcases of_decide_eq_true expired with missing | old
  · rw [computes.kept missing]
    exact follows_nil
  have later : clock.service.cachedAt ≤ asked.monotonic :=
    sub_nonneg.mp (le_trans (by decide) old)
  refine (follows.wait later).rest fun entry isLast => ?_
  rw [List.mem_singleton.mp isLast]
  linarith

theorem Computes.ask {clock : Clock} (computes : clock.Computes) (asked : Asked) :
    (clock.ask asked).Computes := by
  cases expired : clock.service.expired asked with
  | false =>
      have same : clock.ask asked = clock := by
        rw [Clock.ask, MarketStatusService.refreshed, expired]
        simp
      rw [same]
      exact computes
  | true =>
      have renewed : clock.ask asked =
          ⟨⟨some (compute asked.now), asked.monotonic⟩, clock.computed ++ [asked.monotonic]⟩ := by
        rw [Clock.ask, MarketStatusService.refreshed, expired]
        rfl
      have rested := computes.rested expired
      rw [renewed]
      exact ⟨rested.spaced_record computes.spaced Nat.zero_lt_one, .inr rested.record,
        fun missing => by cases missing⟩

theorem run_computes (calls : List Asked) : (run calls).Computes := by
  induction calls using List.reverseRecOn with
  | nil => exact ⟨fun i early late atEarly => (by cases atEarly), .inl rfl, fun _ => rfl⟩
  | append_singleton calls asked induction =>
      rw [run_concat]
      exact induction.ask asked

/-- Whatever the clocks say, an answer is the state of a call less than a life of the cache ago, and
states are computed no more often than that. -/
theorem cached_states_recent (calls : List Asked) :
    Effects.Justified (fun before asked =>
      MarketStatusService.Recent asked before ((run before).service.state asked)) calls ∧
      Spaced cacheTtlSeconds 1 (run calls).computed :=
  ⟨fun before _ _ _ => (run_keepsAnswer before).recent, (run_computes calls).spaced⟩

end Clock

end TradingControl.Markets
