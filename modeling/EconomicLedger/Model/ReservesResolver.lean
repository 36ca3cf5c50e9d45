import EconomicLedger.Model.TraceTree

/-!
# Inflows of the Reserves contract (`protocols/payment_abstraction/reserves_resolver.py`)
-/

namespace EconomicLedger.Model
open Text

structure ReservesInflow where
  txHash : String
  blockNumber : Int
  amount : Int
  sender : String
  path : List String
  source : String
deriving Repr, DecidableEq

/-- `l[idx]`: a negative index counts from the end, and `none` is an `IndexError`. -/
def pyIndex {α : Type} (l : List α) (idx : Int) : Option α :=
  if 0 ≤ idx then l[idx.toNat]?
  else if 0 ≤ l.length + idx then l[(l.length + idx).toNat]?
  else none

def appendReceiver (path : List String) (toAddr : Option String) : List String :=
  match toAddr with
  | none => path
  | some addr => if path.getLast? = some (lower addr) then path else path ++ [lower addr]

/-- The loop over the components, with the path so far and the node reached. -/
def walkPath : List String → RawTrace → List Int → Option (List String)
  | path, _, [] => some path
  | path, node, idx :: rest =>
      if node.calls.length ≤ idx then some path
      else (pyIndex node.calls idx).bind fun child =>
        walkPath (appendReceiver path child.toAddr) child rest

def enrichInflowWithPath (inflow : ReservesInflow) (root : RawTrace) (leafTraceAddress : List Int) :
    Option ReservesInflow :=
  (walkPath [] root leafTraceAddress).map fun path => { inflow with path := path }

end EconomicLedger.Model
