import EconomicLedger.Lib.Relational
import EconomicLedger.Model.Staking

/-!
# dbt models

Each model is the table its query selects on a full refresh.
-/

namespace EconomicLedger.Model
open Text Relational

structure CanonicalBlock where
  chainId : Int
  blockNumber : Int
  blockHash : String
  parentHash : String
  timestamp : Int
  runPartitionId : String
deriving Repr, DecidableEq

def CanonicalBlock.height (block : CanonicalBlock) : Int × Int := (block.chainId, block.blockNumber)

/-- The view `stg_canonical_blocks`: one row for every height it holds. -/
structure CanonicalBlocks where
  rows : List CanonicalBlock
  unique : (rows.map CanonicalBlock.height).Nodup

structure EconomicActionRow where
  action : EconomicAction
  runPartitionId : String
deriving Repr, DecidableEq

structure ActionMovementReconRow where
  txHash : String
  chainId : Int
  blockNumber : Int
  exactCount : Nat
  partialCount : Nat
  unmatchedCount : Nat
  notExpectedCount : Nat
  unexpectedCount : Nat
  ambiguousCount : Nat
  edgeCount : Nat
  overallStatus : String
  runPartitionId : String
deriving Repr, DecidableEq

structure StakingLinkFlowRow where
  eventId : String
  wallet : String
  flowType : String
  amountLink : Int
  txHash : String
  blockNumber : Int
  reconciliationStatus : String
  runPartitionId : String
deriving Repr, DecidableEq

def onCanonicalBlock (a : EconomicActionRow) (cb : CanonicalBlock) : Bool :=
  cb.chainId = a.action.chainId && cb.blockNumber = a.action.blockNumber

/-- Addresses are lower-cased on the way in. -/
def intEconomicActions (economicActions : List EconomicActionRow) (blocks : CanonicalBlocks) :
    List EconomicActionRow :=
  (innerJoin onCanonicalBlock economicActions blocks.rows).map fun (a, _) =>
    { a with action := { a.action with
        contractAddress := lower a.action.contractAddress
        wallet := a.action.wallet.map lower } }

/-- `ok`/`warn`/`fail` onto the per-edge statuses; anything else is `unmatched`. -/
def flowReconciliationStatus (recon : Option ActionMovementReconRow) : String :=
  match recon.map ActionMovementReconRow.overallStatus with
  | some "ok" => "exact"
  | some "warn" => "partial"
  | some "fail" => "unmatched"
  | _ => "unmatched"

def onTxHash (pair : EconomicActionRow × CanonicalBlock) (r : ActionMovementReconRow) : Bool :=
  pair.1.action.txHash = r.txHash

/-- Rows without a wallet are not selected. -/
def flowRow (joined : (EconomicActionRow × CanonicalBlock) × Option ActionMovementReconRow) :
    Option StakingLinkFlowRow :=
  let ((a, _), recon) := joined
  a.action.wallet.map fun wallet =>
    { eventId := a.action.decodedEventId
      wallet := wallet
      flowType := a.action.kind.value
      amountLink := a.action.amountLink
      txHash := a.action.txHash
      blockNumber := a.action.blockNumber
      reconciliationStatus := flowReconciliationStatus recon
      runPartitionId := a.runPartitionId }

def stakingLinkFlows (economicActions : List EconomicActionRow) (blocks : CanonicalBlocks)
    (recon : List ActionMovementReconRow) : List StakingLinkFlowRow :=
  (leftJoin onTxHash
    (innerJoin onCanonicalBlock (intEconomicActions economicActions blocks) blocks.rows)
    recon).filterMap flowRow

end EconomicLedger.Model
