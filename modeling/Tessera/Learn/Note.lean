import Tessera.Learn.Phase
import Tessera.Report
/-!
# What learning tells the log

The lines of the log for the moments of learning. Growth and corrective passes have none of their own.
-/

namespace Tessera.Moment

def text? : Moment Float → Option String
  | .rejected slots after before =>
    some ("grow " ++ toString slots ++ ": settle rejected (" ++ Decimal.fixed 0 after ++ " > " ++
      Decimal.fixed 0 before ++ ")")
  | .replaced index count error best =>
    some ("replace " ++ toString (index + 1) ++ "/" ++ toString count ++ "  MSE: " ++ Decimal.fixed 0 error ++
      "  best: " ++ Decimal.fixed 0 best.error)
  | .refined _ done total error best =>
    some ("final " ++ done.grouped ++ "/" ++ total.grouped ++ "  MSE: " ++ Decimal.fixed 0 error ++
      "  best: " ++ Decimal.fixed 0 best.error)
  | .grown _ => none
  | .corrected _ _ => none

def log (ms : List (Moment Float)) : String := String.join ((ms.filterMap text?).map Report.debugLine)

end Tessera.Moment
