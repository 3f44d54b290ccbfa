import TradingControl.Guardian.PublishClose

/-!
# Positions without a database

Without a database the guardian scans the keys of the paper broker, whose positions name no
strategy.  The close of such a position reaches the engine without one.
-/

namespace TradingControl
namespace RiskGuardian

open Effects Python Events

/-! ## The scan -/

deriving instance DecidableEq for OpenPosition, Close

/-- `float(payload.get(key) or 0.0)`. -/
def floatOrZero (runtime : Runtime) (payload : Dict String Value) (key : String) :
    Except Raised ℚ :=
  match Value.get payload key with
  | some value => if value.truthy then runtime.toFloat value else .ok 0
  | none => .ok 0

/-- The position in a payload; a flat one is none, and what is no dictionary has no `get`. -/
def paperPosition (runtime : Runtime) : Value → Except Raised (Option OpenPosition)
  | .dict payload => do
      let qty ← floatOrZero runtime payload "qty"
      let side := lower ((textField runtime payload "side").getD "")
      if |qty| < 1 / 10 ^ 9 ∨ side = "flat" then
        return none
      else
        let avgCost ← floatOrZero runtime payload "entry_price"
        return some
          { symbol := (textField runtime payload "symbol").getD ""
            side := side
            qty := |qty|
            avgCost := avgCost
            strategyId := "" }
  | _ => .error .attributeError

/-- What Redis answers for one key of the scan. -/
inductive Scanned where
  | held (raw : Option String)
  | failed

/-- `_load_paper_positions`; an exception ends the scan with the positions found so far. -/
def loadPaperPositions (runtime : Runtime) (depth : ℕ) : List Scanned → List OpenPosition
  | [] => []
  | .failed :: _ => []
  | .held raw :: keys =>
      if raw.getD "" = "" then loadPaperPositions runtime depth keys
      else
        match Json.loads runtime depth (raw.getD "") with
        | .error .jsonDecodeError => loadPaperPositions runtime depth keys
        | .error .typeError => loadPaperPositions runtime depth keys
        | .error _ => []
        | .ok payload =>
            match paperPosition runtime payload with
            | .error _ => []
            | .ok none => loadPaperPositions runtime depth keys
            | .ok (some position) => position :: loadPaperPositions runtime depth keys

variable {runtime : Runtime} {depth : ℕ} {position : OpenPosition}

/-! ## The close -/

variable {stamps : Stamps} {close : Close} {decoded : Dict String Value}

/-- Decisions that the engine reads from the closes of scanned positions. -/
inductive MemoryClose (runtime : Runtime) : Decision → Prop where
  | published {levels depth : ℕ} {keys : List Scanned} {position : OpenPosition}
      {percentages : Percentages} {constants : Constants} {regime : Option Value} {price : Option ℚ}
      {later : ℚ → Option String} {close : Close} {stamps : Stamps} {decoded : Dict String Value}
      (scanned : position ∈ loadPaperPositions runtime levels keys)
      (decided : checkPosition percentages constants regime price later position = some close)
      (read : decodeFields (Codec.ofRuntime runtime depth)
        (closeFields (Codec.ofRuntime runtime depth) stamps close) = .ok decoded) :
      MemoryClose runtime (Decision.ofPayload runtime decoded)

end RiskGuardian
end TradingControl
