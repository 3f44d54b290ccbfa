import Mathlib.Data.List.MinMax
import TradingControl.Effects.History
import TradingControl.Guardian.PublishClose

/-!
# The trailing stop

The guardian keeps the peak of a position's unrealized PnL in Redis, under the symbol, and closes
the position when it gives back too much of it.  A scan takes the positions one by one; a position
that is closed takes its peak with it.
-/

namespace TradingControl
namespace RiskGuardian

open Effects Python

/-- `risk:peak_pnl:{symbol}`, decoded. -/
structure Peak where
  peakPnlPct : ℚ
  avgCost : ℚ
deriving DecidableEq

/-- `math.isclose(a, b, rel_tol=1e-9)`. -/
def isClose (a b : ℚ) : Bool := |a - b| ≤ max |a| |b| / 10 ^ 9

/-- The peak that `_check_trailing_stop` stores; a peak of zero counts as none. -/
def ratchet (stored : Option Peak) (avgCost pnl : ℚ) : ℚ :=
  match stored with
  | none => pnl
  | some stored =>
      if isClose stored.avgCost avgCost then
        max pnl (if stored.peakPnlPct = 0 then pnl else stored.peakPnlPct)
      else pnl

/-- What happens in a scan, in the order in which it happens. -/
inductive ScanEvent where
  /-- A position is looked at, at a price that gives it a PnL. -/
  | seen (strategyId symbol : String) (avgCost pnl : ℚ)
  /-- A close is appended to the decisions stream. -/
  | appended (close : Close)
  /-- The peak of a symbol is deleted. -/
  | removed (symbol : String)

/-- A position in the loop of `_check_positions`, with what the loop reads for it. -/
structure Turn where
  position : OpenPosition
  /-- The macro regime in the cache. -/
  regime : Option Value
  /-- `_check_stale_position`. -/
  stale : ℚ → Option String
  /-- Whether an append to the decisions stream gets through. -/
  published : Bool

structure Scan where
  /-- `price_map`. -/
  prices : String → Option ℚ
  turns : List Turn

/-- The guardian in a scan: Redis, and what the loop holds. -/
structure ScanState where
  peaks : String → Option Peak := fun _ => none
  prices : String → Option ℚ := fun _ => none
  alreadyClosed : List String := []
  trace : List ScanEvent := []

section

variable (percentages : Percentages) (constants : Constants)

/-- The reason that `_check_trailing_stop` returns. -/
def trailingReason (peak pnl : ℚ) : Option String :=
  if peak < constants .trailingStopArmPct then none
  else if pnl ≤ peak * (1 - constants .trailingStopGivebackFrac) then
    some ("trailing_stop(peak=" ++ percentages.percent peak ++ ",now=" ++
      percentages.percent pnl ++ ")")
  else none

/-- The PnL of a position that the loop does not skip, and whether it is long. -/
def seenPnl (price : Option ℚ) (position : OpenPosition) : Option (Bool × ℚ) :=
  let side := lower position.side
  if side ≠ "long" ∧ side ≠ "short" then none
  else if position.avgCost ≤ 0 ∨ position.qty ≤ 0 then none
  else
    match price with
    | none => none
    | some price =>
        if price ≤ 0 then none
        else some (side = "long", pnlPct (side = "long") position.avgCost price)

/-- Neither the stop loss nor the take profit closes the position. -/
def insideBounds (regime : Option Value) (isLong : Bool) (pnl : ℚ) : Prop :=
  -RegimeRisk.stopLossPct constants regime isLong < pnl ∧
    pnl < RegimeRisk.takeProfitPct constants regime isLong

instance (regime : Option Value) (isLong : Bool) (pnl : ℚ) :
    Decidable (insideBounds constants regime isLong pnl) :=
  inferInstanceAs (Decidable (_ ∧ _))

/-- `_publish_close`, `_clear_trailing_state` and what the loop notes. -/
def ScanState.close (state : ScanState) (close : Close) (published : Bool) : ScanState where
  peaks := Function.update state.peaks close.symbol none
  prices := state.prices
  alreadyClosed := close.symbol :: state.alreadyClosed
  trace := state.trace ++ (if published then [.appended close] else []) ++ [.removed close.symbol]

/-- The close that the loop decides for a position, with the peak it has by then. -/
def decidedClose (state : ScanState) (turn : Turn) : Option Close :=
  let position := turn.position
  checkPosition percentages constants turn.regime (state.prices position.symbol)
    (fun pnl =>
      match trailingReason percentages constants
          (ratchet (state.peaks position.symbol) position.avgCost pnl) pnl with
      | some reason => some reason
      | none => turn.stale pnl)
    position

/-- A position is looked at; inside its bounds `_check_trailing_stop` stores its peak. -/
def ScanState.look (state : ScanState) (turn : Turn) (isLong : Bool) (pnl : ℚ) : ScanState where
  peaks :=
    if insideBounds constants turn.regime isLong pnl then
      Function.update state.peaks turn.position.symbol
        (some
          { peakPnlPct := ratchet (state.peaks turn.position.symbol) turn.position.avgCost pnl
            avgCost := turn.position.avgCost })
    else state.peaks
  prices := state.prices
  alreadyClosed := state.alreadyClosed
  trace := state.trace ++
    [.seen turn.position.strategyId turn.position.symbol turn.position.avgCost pnl]

/-- One turn of the loop of `_check_positions`. -/
def checkTurn (state : ScanState) (turn : Turn) : ScanState :=
  if turn.position.symbol ∈ state.alreadyClosed then state
  else
    match seenPnl (state.prices turn.position.symbol) turn.position with
    | none => state
    | some (isLong, pnl) =>
        let looked := state.look constants turn isLong pnl
        match decidedClose percentages constants state turn with
        | none => looked
        | some close => looked.close close turn.published

/-- A scan begins with its prices and no symbol closed. -/
def ScanState.begin (state : ScanState) (scan : Scan) : ScanState :=
  { state with prices := scan.prices, alreadyClosed := [] }

/-- `_check_positions`. -/
def checkPositions (state : ScanState) (scan : Scan) : ScanState :=
  scan.turns.foldl (checkTurn percentages constants) (state.begin scan)

end

/-! ## Deciding a close -/

section

variable {percentages : Percentages} {constants : Constants} {state : ScanState} {turn : Turn}
  {price : Option ℚ} {position : OpenPosition} {regime : Option Value}
  {later : ℚ → Option String}

/-- A position that the loop does not skip is closed where there is a reason. -/
theorem checkPosition_seen {isLong : Bool} {pnl : ℚ}
    (seen : seenPnl price position = some (isLong, pnl)) :
    ∃ make : String → Close, checkPosition percentages constants regime price later position =
      (closeReason percentages constants regime isLong pnl (later pnl)).map make := by
  unfold seenPnl at seen
  unfold checkPosition
  dsimp only at seen ⊢
  by_cases unknown : lower position.side ≠ "long" ∧ lower position.side ≠ "short"
  · rw [if_pos unknown] at seen
    cases seen
  by_cases unpriced : position.avgCost ≤ 0 ∨ position.qty ≤ 0
  · rw [if_neg unknown, if_pos unpriced] at seen
    cases seen
  rw [if_neg unknown, if_neg unpriced] at seen ⊢
  cases price with
  | none => cases seen
  | some price =>
      dsimp only at seen ⊢
      by_cases unpaid : price ≤ 0
      · rw [if_pos unpaid] at seen
        cases seen
      rw [if_neg unpaid] at seen ⊢
      obtain ⟨rfl, rfl⟩ := Prod.mk.inj (Option.some.inj seen)
      exact ⟨_, rfl⟩

/-- Outside its bounds a position is closed, whatever comes later. -/
theorem checkPosition_outside {isLong : Bool} {pnl : ℚ}
    (seen : seenPnl price position = some (isLong, pnl))
    (outside : ¬insideBounds constants regime isLong pnl) :
    (checkPosition percentages constants regime price later position).isSome := by
  obtain ⟨make, decided⟩ :=
    @checkPosition_seen percentages constants price position regime later isLong pnl seen
  rw [decided, Option.isSome_map]
  unfold insideBounds at outside
  unfold closeReason
  dsimp only
  split_ifs with stopped tightStop taken tightTake
  · rfl
  · rfl
  · rfl
  · rfl
  · exact (outside ⟨not_le.mp stopped, not_le.mp taken⟩).elim

theorem decidedClose_outside {isLong : Bool} {pnl : ℚ}
    (seen : seenPnl (state.prices turn.position.symbol) turn.position = some (isLong, pnl))
    (outside : ¬insideBounds constants turn.regime isLong pnl) :
    (decidedClose percentages constants state turn).isSome := by
  unfold decidedClose
  exact checkPosition_outside seen outside

theorem decidedClose_symbol {close : Close}
    (decided : decidedClose percentages constants state turn = some close) :
    close.symbol = turn.position.symbol := by
  unfold decidedClose at decided
  exact (checkPosition_close decided).2.2.1

end

/-! ## The law of the peak -/

section

variable (strategyId symbol : String)

/-- Sightings of a strategy's position, with the ones before a close of the symbol forgotten. -/
def sighted (sightings : List (ℚ × ℚ)) : ScanEvent → List (ℚ × ℚ)
  | .seen strategy seen avgCost pnl =>
      if strategy = strategyId ∧ seen = symbol then sightings ++ [(avgCost, pnl)] else sightings
  | .appended close => if close.symbol = symbol then [] else sightings
  | .removed _ => sightings

/-- Average costs and PnLs of a strategy's position since the last close of its symbol. -/
def sinceClose (trace : List ScanEvent) : List (ℚ × ℚ) :=
  trace.foldl (sighted strategyId symbol) []

/-- A peak of the symbol is deleted right after a close of the symbol was appended. -/
def RemovedAfterAppend (before : List ScanEvent) (event : ScanEvent) : Prop :=
  event = .removed symbol →
    ∃ close, before.getLast? = some (.appended close) ∧ close.symbol = symbol

/-- The stored peak is the highest PnL that the position has been seen with, and is deleted only
after a close. -/
structure PeakLaw (state : ScanState) : Prop where
  highest : sinceClose strategyId symbol state.trace ≠ [] →
    (state.peaks symbol).map Peak.peakPnlPct =
      ((sinceClose strategyId symbol state.trace).map Prod.snd).max?
  removed : Justified (RemovedAfterAppend symbol) state.trace

/-- The position is seen with the average cost that it had before. -/
def SameBasis (state : ScanState) (turn : Turn) : Prop :=
  turn.position.symbol = symbol → turn.position.strategyId = strategyId →
    ∀ last ∈ (sinceClose strategyId symbol state.trace).getLast?,
      isClose last.1 turn.position.avgCost = true

/-- A turn of the position itself does not meet a peak of zero with a loss, nor at first a higher
peak of the same cost. -/
def OwnTurn (state : ScanState) (turn : Turn) (pnl : ℚ) : Prop :=
  ∀ stored ∈ state.peaks symbol,
    if sinceClose strategyId symbol state.trace = [] then
      isClose stored.avgCost turn.position.avgCost = true →
        stored.peakPnlPct = 0 ∨ stored.peakPnlPct ≤ pnl
    else stored.peakPnlPct ≠ 0 ∨ 0 ≤ pnl

/-- A turn of another position of the symbol leaves the peak as it stands. -/
def OtherTurn (state : ScanState) (turn : Turn) (pnl : ℚ) : Prop :=
  sinceClose strategyId symbol state.trace ≠ [] →
    ∃ stored ∈ state.peaks symbol, stored.avgCost = turn.position.avgCost ∧
      pnl ≤ stored.peakPnlPct ∧ (stored.peakPnlPct ≠ 0 ∨ pnl = 0)

/-- What a turn must not do to the peak of the position, before it is taken: drop a close, or meet
the peak of another position. -/
def Undisturbed (percentages : Percentages) (constants : Constants) (state : ScanState)
    (turn : Turn) : Prop :=
  turn.position.symbol = symbol → symbol ∉ state.alreadyClosed →
    ∀ seen ∈ seenPnl (state.prices symbol) turn.position,
      ((decidedClose percentages constants state turn).isSome → turn.published = true) ∧
        (insideBounds constants turn.regime seen.1 seen.2 →
          if turn.position.strategyId = strategyId then OwnTurn strategyId symbol state turn seen.2
          else OtherTurn strategyId symbol state turn seen.2)

instance (state : ScanState) (turn : Turn) :
    Decidable (SameBasis strategyId symbol state turn) := by
  unfold SameBasis
  infer_instance

instance (state : ScanState) (turn : Turn) (pnl : ℚ) :
    Decidable (OwnTurn strategyId symbol state turn pnl) := by
  unfold OwnTurn
  infer_instance

instance (state : ScanState) (turn : Turn) (pnl : ℚ) :
    Decidable (OtherTurn strategyId symbol state turn pnl) := by
  unfold OtherTurn
  infer_instance

instance (percentages : Percentages) (constants : Constants) (state : ScanState) (turn : Turn) :
    Decidable (Undisturbed strategyId symbol percentages constants state turn) := by
  unfold Undisturbed
  infer_instance

/-- Every turn of every scan meets a condition on the state in front of it. -/
def Throughout (percentages : Percentages) (constants : Constants)
    (condition : ScanState → Turn → Prop) (start : ScanState) (scans : List Scan) : Prop :=
  Along (checkPositions percentages constants)
    (fun state scan =>
      Along (checkTurn percentages constants) condition (state.begin scan) scan.turns)
    start scans

instance (percentages : Percentages) (constants : Constants)
    (condition : ScanState → Turn → Prop) [∀ state turn, Decidable (condition state turn)]
    (start : ScanState) (scans : List Scan) :
    Decidable (Throughout percentages constants condition start scans) := by
  unfold Throughout
  infer_instance

/-- The peak under the symbol is the position's own. -/
structure Tracks (stored : Option Peak) (trace : List ScanEvent) : Prop where
  own : ∀ last, (sinceClose strategyId symbol trace).getLast? = some last →
    ∃ peak, ((sinceClose strategyId symbol trace).map Prod.snd).max? = some peak ∧
      stored = some { peakPnlPct := peak, avgCost := last.1 }
  removed : Justified (RemovedAfterAppend symbol) trace

end

section

variable {strategyId symbol : String} {stored : Option Peak} {trace : List ScanEvent}
  {percentages : Percentages} {constants : Constants} {state : ScanState} {turn : Turn}

theorem sinceClose_concat (event : ScanEvent) :
    sinceClose strategyId symbol (trace ++ [event]) =
      sighted strategyId symbol (sinceClose strategyId symbol trace) event := by
  rw [sinceClose, List.foldl_concat]
  rfl

theorem max?_concat {values : List ℚ} {peak : ℚ} (highest : values.max? = some peak) (last : ℚ) :
    (values ++ [last]).max? = some (max peak last) := by
  cases values with
  | nil => cases highest
  | cons first rest =>
      rw [List.max?_cons', Option.some.injEq] at highest
      rw [List.cons_append, List.max?_cons', List.foldl_concat, highest]

theorem Tracks.law (tracks : Tracks strategyId symbol (state.peaks symbol) state.trace) :
    PeakLaw strategyId symbol state := by
  refine ⟨fun seen => ?_, tracks.removed⟩
  obtain ⟨last, found⟩ := Option.isSome_iff_exists.mp (List.getLast?_isSome.mpr seen)
  obtain ⟨peak, highest, held⟩ := tracks.own last found
  rw [highest, held]
  rfl

/-- An event that is none of the position leaves what is tracked. -/
theorem Tracks.skip (tracks : Tracks strategyId symbol stored trace) {event : ScanEvent}
    (unsighted : ∀ sightings, sighted strategyId symbol sightings event = sightings)
    (kept : event ≠ .removed symbol) : Tracks strategyId symbol stored (trace ++ [event]) := by
  constructor
  · rw [sinceClose_concat, unsighted]
    exact tracks.own
  · exact tracks.removed.concat fun same => (kept same).elim

theorem Tracks.close (removed : Justified (RemovedAfterAppend symbol) trace) {close : Close}
    (same : close.symbol = symbol) :
    Tracks strategyId symbol none (trace ++ [.appended close] ++ [.removed symbol]) := by
  constructor
  · intro last found
    rw [sinceClose_concat, sinceClose_concat] at found
    simp [sighted, same] at found
  · have appended : Justified (RemovedAfterAppend symbol) (trace ++ [.appended close]) :=
      removed.concat fun wrong => by cases wrong
    exact appended.concat fun _ => ⟨close, by simp, same⟩

/-- The first PnL that is seen is the peak, unless a higher one of the same cost is stored. -/
theorem ratchet_first {avgCost pnl : ℚ}
    (fresh : ∀ held, stored = some held → isClose held.avgCost avgCost = true →
      held.peakPnlPct = 0 ∨ held.peakPnlPct ≤ pnl) : ratchet stored avgCost pnl = pnl := by
  rcases stored with _ | held
  · rfl
  · rw [ratchet]
    split_ifs with close zero
    · exact max_self pnl
    · exact max_eq_left ((fresh held rfl close).resolve_left zero)
    · rfl

/-- A stored peak of the same cost is raised to what is seen, unless it is a zero that hides a
loss. -/
theorem ratchet_next {held : Peak} {avgCost pnl : ℚ} (close : isClose held.avgCost avgCost = true)
    (kept : held.peakPnlPct ≠ 0 ∨ 0 ≤ pnl) :
    ratchet (some held) avgCost pnl = max held.peakPnlPct pnl := by
  rw [ratchet, if_pos close]
  split_ifs with zero
  · have gain : 0 ≤ pnl := kept.resolve_left fun nonzero => nonzero zero
    rw [max_self, zero, max_eq_right gain]
  · exact max_comm ..

/-- The position is seen once more. -/
theorem Tracks.see (tracks : Tracks strategyId symbol stored trace) {avgCost pnl : ℚ}
    (basis : ∀ last, (sinceClose strategyId symbol trace).getLast? = some last →
      isClose last.1 avgCost = true)
    (undisturbed : ∀ held, stored = some held →
      if sinceClose strategyId symbol trace = [] then
        isClose held.avgCost avgCost = true → held.peakPnlPct = 0 ∨ held.peakPnlPct ≤ pnl
      else held.peakPnlPct ≠ 0 ∨ 0 ≤ pnl) :
    Tracks strategyId symbol
      (some { peakPnlPct := ratchet stored avgCost pnl, avgCost := avgCost })
      (trace ++ [.seen strategyId symbol avgCost pnl]) := by
  constructor
  · intro last found
    have sightings : sinceClose strategyId symbol
        (trace ++ [.seen strategyId symbol avgCost pnl]) =
          sinceClose strategyId symbol trace ++ [(avgCost, pnl)] := by
      rw [sinceClose_concat, sighted, if_pos ⟨rfl, rfl⟩]
    rw [sightings, List.getLast?_concat, Option.some.injEq] at found
    subst found
    rw [sightings, List.map_append]
    rcases earlier : (sinceClose strategyId symbol trace).getLast? with _ | previous
    · -- the first sighting: no peak of the same cost is higher
      have first := List.getLast?_eq_none_iff.mp earlier
      refine ⟨pnl, by rw [first]; rfl, ?_⟩
      have peak : ratchet stored avgCost pnl = pnl := by
        apply ratchet_first
        intro held isStored
        have fresh := undisturbed held isStored
        rwa [if_pos first] at fresh
      rw [peak]
    · obtain ⟨peak, highest, rfl⟩ := tracks.own previous earlier
      refine ⟨max peak pnl, max?_concat highest pnl, ?_⟩
      have seen : sinceClose strategyId symbol trace ≠ [] := by
        intro none
        rw [none] at earlier
        cases earlier
      have kept := undisturbed _ rfl
      rw [if_neg seen] at kept
      have raised : ratchet (some { peakPnlPct := peak, avgCost := previous.1 }) avgCost pnl =
          max peak pnl := ratchet_next (basis previous earlier) kept
      rw [raised]
  · exact tracks.removed.concat fun wrong => by cases wrong

/-- A turn of another position that leaves the peak as it stands. -/
theorem ratchet_kept {held : Peak} {avgCost pnl : ℚ} (same : held.avgCost = avgCost)
    (below : pnl ≤ held.peakPnlPct) (kept : held.peakPnlPct ≠ 0 ∨ pnl = 0) :
    ratchet (some held) avgCost pnl = held.peakPnlPct := by
  have close : isClose held.avgCost avgCost = true := by
    rw [isClose, same, sub_self, abs_zero, decide_eq_true_eq]
    exact div_nonneg (le_max_of_le_left (abs_nonneg _)) (by norm_num)
  have gains : held.peakPnlPct ≠ 0 ∨ 0 ≤ pnl := kept.imp_right ge_of_eq
  rw [ratchet_next close gains, max_eq_left below]

/-! ## Turns, scans and runs -/

theorem tracks_look {isLong : Bool} {pnl : ℚ}
    (tracks : Tracks strategyId symbol (state.peaks symbol) state.trace)
    (same : SameBasis strategyId symbol state turn)
    (undisturbed : turn.position.symbol = symbol →
      insideBounds constants turn.regime isLong pnl →
        if turn.position.strategyId = strategyId then OwnTurn strategyId symbol state turn pnl
        else OtherTurn strategyId symbol state turn pnl)
    (inside : turn.position.symbol = symbol → insideBounds constants turn.regime isLong pnl) :
    Tracks strategyId symbol ((state.look constants turn isLong pnl).peaks symbol)
      (state.look constants turn isLong pnl).trace := by
  simp only [ScanState.look]
  by_cases named : turn.position.symbol = symbol
  · subst named
    rw [if_pos (inside rfl), Function.update_self]
    have free := undisturbed rfl (inside rfl)
    by_cases own : turn.position.strategyId = strategyId
    · rw [if_pos own] at free
      subst own
      exact tracks.see (same rfl rfl) free
    · rw [if_neg own] at free
      have skipped : Tracks strategyId turn.position.symbol
          (state.peaks turn.position.symbol) (state.trace ++ [.seen turn.position.strategyId
            turn.position.symbol turn.position.avgCost pnl]) :=
        tracks.skip (fun sightings => if_neg fun both => own both.1) (fun wrong => by cases wrong)
      by_cases first : sinceClose strategyId turn.position.symbol state.trace = []
      · refine ⟨fun last found => ?_, skipped.removed⟩
        rw [sinceClose_concat, first, sighted, if_neg fun both => own both.1] at found
        cases found
      · obtain ⟨held, stored, cost, below, nonzero⟩ := free first
        rw [stored, ← cost, ratchet_kept rfl below nonzero]
        rwa [stored, ← cost] at skipped
  · have kept : (if insideBounds constants turn.regime isLong pnl then
        Function.update state.peaks turn.position.symbol
          (some
            { peakPnlPct := ratchet (state.peaks turn.position.symbol) turn.position.avgCost pnl
              avgCost := turn.position.avgCost })
        else state.peaks) symbol = state.peaks symbol := by
      split_ifs
      · exact Function.update_of_ne (Ne.symm named) ..
      · rfl
    rw [kept]
    exact tracks.skip (fun sightings => if_neg fun both => named both.2)
      (fun wrong => by cases wrong)

/-- A close of another symbol leaves the peak. -/
theorem Tracks.close_other (tracks : Tracks strategyId symbol (state.peaks symbol) state.trace)
    {close : Close} (other : close.symbol ≠ symbol) (published : Bool) :
    Tracks strategyId symbol ((state.close close published).peaks symbol)
      (state.close close published).trace := by
  have notRemoved : ScanEvent.removed close.symbol ≠ .removed symbol := by
    rintro ⟨⟩
    exact other rfl
  simp only [ScanState.close]
  rw [Function.update_of_ne (Ne.symm other)]
  cases published with
  | true =>
      have appended : Tracks strategyId symbol (state.peaks symbol)
          (state.trace ++ [.appended close]) :=
        tracks.skip (fun sightings => if_neg other) fun wrong => by cases wrong
      exact appended.skip (fun sightings => rfl) notRemoved
  | false =>
      rw [if_neg Bool.false_ne_true, List.append_nil]
      exact tracks.skip (fun sightings => rfl) notRemoved

theorem tracks_checkTurn
    (tracks : Tracks strategyId symbol (state.peaks symbol) state.trace)
    (same : SameBasis strategyId symbol state turn)
    (undisturbed : Undisturbed strategyId symbol percentages constants state turn) :
    Tracks strategyId symbol ((checkTurn percentages constants state turn).peaks symbol)
      (checkTurn percentages constants state turn).trace := by
  unfold checkTurn
  by_cases closed : turn.position.symbol ∈ state.alreadyClosed
  · rw [if_pos closed]
    exact tracks
  rw [if_neg closed]
  rcases seen : seenPnl (state.prices turn.position.symbol) turn.position with _ | ⟨isLong, pnl⟩
  · exact tracks
  dsimp only
  rcases decided : decidedClose percentages constants state turn with _ | close
  · -- nothing is closed, so the position is inside its bounds
    have inside : insideBounds constants turn.regime isLong pnl := by
      by_contra outside
      have closes : (decidedClose percentages constants state turn).isSome :=
        decidedClose_outside seen outside
      rw [decided] at closes
      cases closes
    refine tracks_look tracks same (fun named => ?_) fun _ => inside
    subst named
    exact (undisturbed rfl closed (isLong, pnl) seen).2
  · have sameSymbol := decidedClose_symbol decided
    by_cases named : close.symbol = symbol
    · have isTurn : turn.position.symbol = symbol := sameSymbol.symm.trans named
      subst isTurn
      have published := (undisturbed rfl closed (isLong, pnl) seen).1 (by rw [decided]; rfl)
      simp only [ScanState.close, ScanState.look, published, named, Function.update_self]
      exact Tracks.close (tracks.removed.concat fun wrong => by cases wrong) named
    · have other : turn.position.symbol ≠ symbol := fun isTurn => named (sameSymbol.trans isTurn)
      have looked : Tracks strategyId symbol ((state.look constants turn isLong pnl).peaks symbol)
          (state.look constants turn isLong pnl).trace :=
        tracks_look tracks same (fun isTurn => (other isTurn).elim) fun isTurn =>
          (other isTurn).elim
      exact looked.close_other named turn.published

theorem tracks_checkPositions {scan : Scan}
    (tracks : Tracks strategyId symbol (state.peaks symbol) state.trace)
    (along : Along (checkTurn percentages constants)
      (fun state turn => SameBasis strategyId symbol state turn ∧
        Undisturbed strategyId symbol percentages constants state turn)
      (state.begin scan) scan.turns) :
    Tracks strategyId symbol ((checkPositions percentages constants state scan).peaks symbol)
      (checkPositions percentages constants state scan).trace :=
  along.foldl (fun state => Tracks strategyId symbol (state.peaks symbol) state.trace) tracks
    fun _ _ condition tracks => tracks_checkTurn tracks condition.1 condition.2

end

/-- While no close of the symbol is dropped and no turn meets a peak of zero or of another
position, the stored peak after every scan is the highest PnL the position was seen with, and it is
deleted only after a close was appended. -/
theorem peak_ratchets (percentages : Percentages) (constants : Constants)
    (strategyId symbol : String) (start : ScanState) (scans : List Scan)
    (fresh : start.trace = [])
    (undisturbed : Throughout percentages constants
      (fun state turn => SameBasis strategyId symbol state turn ∧
        Undisturbed strategyId symbol percentages constants state turn) start scans) :
    ∀ earlier later, scans = earlier ++ later →
      PeakLaw strategyId symbol
        (earlier.foldl (checkPositions percentages constants) start) := by
  rintro earlier later rfl
  have first : Tracks strategyId symbol (start.peaks symbol) start.trace := by
    rw [fresh]
    exact ⟨fun last found => (Option.some_ne_none last found.symm).elim, justified_nil⟩
  have along := (along_append.mp undisturbed).1
  exact (along.foldl (fun state => Tracks strategyId symbol (state.peaks symbol) state.trace) first
    fun state scan condition tracks => tracks_checkPositions tracks condition).law

/-! ## A peak of zero -/

def enteredAtHundred : OpenPosition where
  symbol := "BTC/USD"
  side := "long"
  qty := 1
  avgCost := 100
  strategyId := "momentum"

/-- A scan of that position alone. -/
def soleScan (price : ℚ) : Scan where
  prices _ := some price
  turns :=
    [{ position := enteredAtHundred
       regime := none
       stale := fun _ => none
       published := true }]

/-- The guardian after scans at these prices. -/
def soleRun (prices : List ℚ) : ScanState :=
  (prices.map soleScan).foldl (checkPositions plainPercentages defaultConstants) {}

/-- A position that gains two percent and falls back to one keeps the peak of two. -/
theorem peak_ratchets_sole : PeakLaw "momentum" "BTC/USD" (soleRun [102, 101]) := by
  refine peak_ratchets plainPercentages defaultConstants "momentum" "BTC/USD" {}
    ([102, 101].map soleScan) rfl ?_ _ [] (List.append_nil _).symm
  decide +kernel

/-- A position that stands at its entry price and then falls: the peak of zero is lost. -/
theorem zero_peak_lost :
    ¬∀ (percentages : Percentages) (constants : Constants) (strategyId symbol : String)
      (start : ScanState) (scans : List Scan), start.trace = [] → start.peaks symbol = none →
      Throughout percentages constants (SameBasis strategyId symbol) start scans →
      PeakLaw strategyId symbol (scans.foldl (checkPositions percentages constants) start) := by
  intro always
  have law : PeakLaw "momentum" "BTC/USD" (soleRun [100, 99]) := by
    refine always plainPercentages defaultConstants "momentum" "BTC/USD" {}
      ([100, 99].map soleScan) rfl rfl ?_
    decide +kernel
  have seen : sinceClose "momentum" "BTC/USD" (soleRun [100, 99]).trace =
      [(100, 0), (100, -1 / 100)] := by decide +kernel
  have stored : ((soleRun [100, 99]).peaks "BTC/USD").map Peak.peakPnlPct = some (-1 / 100) := by
    decide +kernel
  have highest := law.highest (by rw [seen]; decide)
  rw [seen, stored] at highest
  revert highest
  decide +kernel

end RiskGuardian
end TradingControl
