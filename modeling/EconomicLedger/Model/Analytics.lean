import EconomicLedger.Lib.Text
import EconomicLedger.Model.Types
import Mathlib.Data.List.Sort

/-!
# Analytics (`analytics/apy_realized.py`, `analytics/pa_fee_attribution.py`)
-/

namespace EconomicLedger.Model
open Text

/-! ## Time-weighted principal -/

/-- A missing end, `None` and 0 stand for the snapshot. -/
def stakeEnd (ev : Dict String Value) (snapshotUnix : Int) : Py Int :=
  (((ev.get? "end_unix").getD (.int snapshotUnix)).orElse (.int snapshotUnix)).toInt

def addStakeEvent (snapshotUnix total : Int) (ev : Dict String Value) : Py Int := do
  let principal ← ((ev.get? "principal").getD (.int 0)).toInt
  let start ← ((ev.get? "start_unix").getD (.int 0)).toInt
  let stop ← stakeEnd ev snapshotUnix
  let stop := min stop snapshotUnix
  if stop ≤ start ∨ principal ≤ 0 then return total
  else return total + principal * (stop - start)

def computeTimeWeightedPrincipal (stakeEvents : List (Dict String Value)) (snapshotUnix : Int) : Py Int :=
  stakeEvents.foldlM (addStakeEvent snapshotUnix) 0

/-! ## Fee attribution -/

structure FeeAttribution where
  snapshotDate : String
  service : String
  sourceAddress : String
  inflowLink : Int
deriving Repr, DecidableEq

def knownServiceAddresses : List (String × String) :=
  [("0x271682deb8c4e0901d1a1550ad2e64d568e69909", "vrf"),
    ("0x65dcc24f8ff9e51f10dcc7ed1e4e2a61e6e14bd6", "functions"),
    ("0x0000000000000000000000000000000000000001", "data_streams"),
    ("0x80226fc0ee2b096224eeac085bb9a8cba1146f7d", "ccip")]

def classifyService (sourceAddress : String) : String :=
  (knownServiceAddresses.lookup (lower sourceAddress)).getD "other"

/-- `str(action.get("counterparty", "")).lower()`: the text of a `None` is `none`. -/
def counterpartyKey (action : Dict String Value) : String :=
  lower ((action.get? "counterparty").getD (.str "")).text

def inflowOf (action : Dict String Value) : Py Int :=
  ((action.get? "output_amount").getD ((action.get? "amount_link").getD (.int 0))).toInt

def addInflow (bucket : Dict (String × String) Int) (action : Dict String Value) :
    Py (Dict (String × String) Int) :=
  let cp := counterpartyKey action
  if cp = "" then .ok bucket
  else do
    let amount ← inflowOf action
    return bucket.upsert (classifyService cp, cp) fun inflow => inflow.getD 0 + amount

def attributePaFees (paActions : List (Dict String Value)) (snapshotDate : String) :
    Py (List FeeAttribution) := do
  let bucket ← paActions.foldlM addInflow Dict.empty
  let out := bucket.entries.map fun ((service, src), amount) =>
    { snapshotDate := snapshotDate, service := service, sourceAddress := src, inflowLink := amount }
  -- a reversed sort keeps equal inflows in their order
  return out.insertionSort (·.inflowLink ≥ ·.inflowLink)

end EconomicLedger.Model
