import EconomicLedger.Model.Matcher
import EconomicLedger.Model.Rollups

/-!
# Reconciliation tables (`models/staging/stg_action_movement_edges.sql`,
`models/intermediate/int_action_movement_recon.sql`, `models/marts/reconciliation_status.sql`)
-/

namespace EconomicLedger.Model
open Text Relational Rollup

def Method.value : Method → String
  | .eventLog => "event_log"
  | .trace => "trace"
  | .balanceInferred => "balance_inferred"
  | .manualRule => "manual_rule"

/-- A row of `stg_action_movement_edges`. -/
structure ActionMovementEdge where
  edgeId : String
  actionId : Option String
  movementId : Option String
  allocatedAmount : Int
  status : String
  method : Option String
  reason : String
  chainId : Int
  blockNumber : Int
  txHash : String
  runPartitionId : String
deriving Repr, DecidableEq

/-- The edges of a transaction, loaded under its chain, block and hash. -/
def loadEdges (runPartitionId : String) (recon : TxReconciliation) : List ActionMovementEdge :=
  recon.edges.map fun e =>
    { edgeId := e.edgeId
      actionId := e.actionId
      movementId := e.movementId
      allocatedAmount := e.allocatedAmount
      status := e.status.value
      method := e.method.map Method.value
      reason := e.reason
      chainId := recon.chainId
      blockNumber := recon.blockNumber
      txHash := recon.txHash
      runPartitionId := runPartitionId }

/-- `countif` on the statuses of a group. -/
def statusCount (statuses : List String) (group : List ActionMovementEdge) : Nat :=
  (group.filter (·.status ∈ statuses)).length

/-! ## `int_action_movement_recon` -/

def ActionMovementEdge.tx (e : ActionMovementEdge) : String × Int × Int := (e.txHash, e.chainId, e.blockNumber)

def sqlOverallStatus (group : List ActionMovementEdge) : String :=
  if 0 < statusCount ["unmatched", "unexpected", "ambiguous"] group then "fail"
  else if 0 < statusCount ["partial"] group then "warn"
  else "ok"

def actionMovementReconRow (key : String × Int × Int) (group : List ActionMovementEdge) :
    ActionMovementReconRow :=
  { txHash := key.1
    chainId := key.2.1
    blockNumber := key.2.2
    exactCount := statusCount ["exact"] group
    partialCount := statusCount ["partial"] group
    unmatchedCount := statusCount ["unmatched"] group
    notExpectedCount := statusCount ["not_expected"] group
    unexpectedCount := statusCount ["unexpected"] group
    ambiguousCount := statusCount ["ambiguous"] group
    edgeCount := group.length
    overallStatus := sqlOverallStatus group
    runPartitionId := maxText (group.map ActionMovementEdge.runPartitionId) }

def intActionMovementRecon (edges : List ActionMovementEdge) : List ActionMovementReconRow :=
  groupRows ActionMovementEdge.tx actionMovementReconRow edges

/-! ## `reconciliation_status` on DuckDB -/

structure ChainEdges where
  chainId : Int
  blockRangeStart : Int
  blockRangeEnd : Int
  edgeCount : Nat
  exactCount : Nat
  partialCount : Nat
  unmatchedCount : Nat
  notExpectedCount : Nat
  unexpectedCount : Nat
  ambiguousCount : Nat
  runPartitionId : String
deriving Repr, DecidableEq

structure ReconciliationStatusRow where
  partitionId : String
  chainId : Int
  blockRangeStart : Int
  blockRangeEnd : Int
  passRate : Option ℚ
  countsByStatus : String
  runPartitionId : String
deriving DecidableEq

def chainEdges (chainId : Int) (group : List ActionMovementEdge) : ChainEdges :=
  { chainId := chainId
    blockRangeStart := (group.map ActionMovementEdge.blockNumber).min?.getD 0
    blockRangeEnd := (group.map ActionMovementEdge.blockNumber).max?.getD 0
    edgeCount := group.length
    exactCount := statusCount ["exact"] group
    partialCount := statusCount ["partial"] group
    unmatchedCount := statusCount ["unmatched"] group
    notExpectedCount := statusCount ["not_expected"] group
    unexpectedCount := statusCount ["unexpected"] group
    ambiguousCount := statusCount ["ambiguous"] group
    runPartitionId := maxText (group.map ActionMovementEdge.runPartitionId) }

def countsJson (exactCount partialCount unmatchedCount notExpectedCount unexpectedCount
    ambiguousCount : Nat) : String :=
  "\x7b\"exact\":" ++ toString exactCount ++
  ",\"partial\":" ++ toString partialCount ++
  ",\"unmatched\":" ++ toString unmatchedCount ++
  ",\"not_expected\":" ++ toString notExpectedCount ++
  ",\"unexpected\":" ++ toString unexpectedCount ++
  ",\"ambiguous\":" ++ toString ambiguousCount ++
  "\x7d"

def onTipBlock (edges : ChainEdges) (cb : CanonicalBlock) : Bool :=
  cb.chainId = edges.chainId && cb.blockNumber = edges.blockRangeEnd

/-- The quotient is exact here, and `NULL` without edges. -/
def reconciliationStatusRow (sha256 : Digest) (edges : ChainEdges) : ReconciliationStatusRow :=
  { partitionId := sha256 (joinBar
      [toString edges.chainId, toString edges.blockRangeStart, toString edges.blockRangeEnd])
    chainId := edges.chainId
    blockRangeStart := edges.blockRangeStart
    blockRangeEnd := edges.blockRangeEnd
    passRate := if edges.edgeCount = 0 then none
      else some (((edges.exactCount + edges.notExpectedCount : Nat) : ℚ) / edges.edgeCount)
    countsByStatus := countsJson edges.exactCount edges.partialCount edges.unmatchedCount
      edges.notExpectedCount edges.unexpectedCount edges.ambiguousCount
    runPartitionId := edges.runPartitionId }

def reconciliationStatus (sha256 : Digest) (edges : List ActionMovementEdge) (blocks : CanonicalBlocks) :
    List ReconciliationStatusRow :=
  (innerJoin onTipBlock (groupRows ActionMovementEdge.chainId chainEdges edges) blocks.rows).map
    fun (edges, _) => reconciliationStatusRow sha256 edges

end EconomicLedger.Model
