import EconomicLedger.Model.Matcher
import EconomicLedger.Model.Rollups
import Mathlib.Algebra.GroupWithZero.Nat

/-!
# Checks of the ledger and of reconciliation (`reconciliation/checks.py`, `tests/assert_ledger_balanced_per_tx.sql`)
-/

namespace EconomicLedger.Model
open Rollup

inductive Severity where
  | info
  | warn
  | critical
deriving Repr, DecidableEq

structure CheckResult where
  name : String
  passed : Bool
  severity : Severity
  detail : String
  metricValue : Option Int
deriving Repr, DecidableEq

def checkNoUnmatchedEconomicActions (report : PartitionReconciliation) : CheckResult :=
  let unmatched := (report.txRecons.map TxReconciliation.unmatchedActions).sum
  { name := "no_unmatched_economic_actions"
    passed := unmatched = 0
    severity := .critical
    detail := "unmatched_action_count=" ++ toString unmatched
    metricValue := some unmatched }

def addToSums (sums : Option (Int × Int)) (entry : LedgerEntry) : Int × Int :=
  let bucket := sums.getD (0, 0)
  match entry.direction with
  | .debit => (bucket.1 + entry.amountLink, bucket.2)
  | .credit => (bucket.1, bucket.2 + entry.amountLink)

def sumsByTx (entries : List LedgerEntry) : Dict String (Int × Int) :=
  Dict.gather LedgerEntry.txHash addToSums Dict.empty (entries.filter (·.txHash ≠ ""))

def ledgerViolators (entries : List LedgerEntry) : List (String × Int × Int) :=
  (sumsByTx entries).entries.filter fun violator => violator.2.1 ≠ violator.2.2

def violatorText (violator : String × Int × Int) : String :=
  violator.1 ++ ": debit=" ++ toString violator.2.1 ++ "/credit=" ++ toString violator.2.2

def checkLedgerBalancedPerTx (entries : List LedgerEntry) : CheckResult :=
  let violators := ledgerViolators entries
  { name := "ledger_balanced_per_tx"
    passed := violators.length = 0
    severity := .critical
    detail :=
      if violators = [] then "all txs balanced"
      else "first 10 violators: " ++ "; ".intercalate ((violators.take 10).map violatorText)
    metricValue := some violators.length }

/-! ## `assert_ledger_balanced_per_tx` -/

structure LedgerImbalance where
  chainId : Int
  txHash : String
  debits : Int
  credits : Int
  delta : Int
deriving Repr, DecidableEq

def ledgerImbalance (key : Int × String) (group : List LedgerEntry) : LedgerImbalance :=
  { chainId := key.1
    txHash := key.2
    debits := sumWhen (·.direction = .debit) LedgerEntry.amountLink group
    credits := sumWhen (·.direction = .credit) LedgerEntry.amountLink group
    delta := (group.map fun e => if e.direction = .debit then e.amountLink else -e.amountLink).sum }

def chainTx (entry : LedgerEntry) : Int × String := (entry.chainId, entry.txHash)

def assertLedgerBalancedPerTx (ledgerEntries : List LedgerEntry) : List LedgerImbalance :=
  (groupRows chainTx ledgerImbalance ledgerEntries).filter (·.delta ≠ 0)

end EconomicLedger.Model
