import EconomicLedger.Lib.Combinations
import EconomicLedger.Model.Staking
import Mathlib.Data.List.Sort
import Mathlib.Data.Rat.Defs

/-!
# Reconciliation of actions and movements (`reconciliation/economic_reconciler.py`)
-/

namespace EconomicLedger.Model
open Text

inductive Status where
  | exact
  | partialMatch
  | unmatched
  | notExpected
  | unexpected
  | ambiguous
deriving Repr, DecidableEq

def Status.all : List Status :=
  [.exact, .partialMatch, .unmatched, .notExpected, .unexpected, .ambiguous]

def Status.value : Status → String
  | .exact => "exact"
  | .partialMatch => "partial"
  | .unmatched => "unmatched"
  | .notExpected => "not_expected"
  | .unexpected => "unexpected"
  | .ambiguous => "ambiguous"

inductive Method where
  | eventLog
  | trace
  | balanceInferred
  | manualRule
deriving Repr, DecidableEq

def notExpectedKinds : List ActionKind := [.unstakeRequested, .rewardAccrued, .poolConfigChanged]

structure ActionMovementMatch where
  edgeId : String
  actionId : Option String
  movementId : Option String
  allocatedAmount : Int
  status : Status
  method : Option Method
  reason : String
deriving Repr, DecidableEq

structure TxReconciliation where
  chainId : Int
  blockNumber : Int
  txHash : String
  edges : List ActionMovementMatch
  actionsTotal : Nat
  movementsTotal : Nat
  unmatchedActions : Nat
  unexpectedMovements : Nat
  overallStatus : Status
deriving Repr, DecidableEq

structure PartitionReconciliation where
  partitionId : String
  chainId : Int
  blockRange : Int × Int
  txRecons : List TxReconciliation
  passRate : ℚ
  countsByStatus : Dict Status Nat

variable (sha256 : Digest)

def computeEdgeId (actionId movementId : Option String) (status : Status) (idx : Nat) : String :=
  sha256 (joinBar ["edge", orText actionId "", orText movementId "", status.value, toString idx])

def methodForMovement (movement : TokenMovement) : Method :=
  if movement.sourcePriority = .log then .eventLog else .trace

def actionEdge (action : EconomicAction) (status : Status) (reason : String) : ActionMovementMatch :=
  { edgeId := computeEdgeId sha256 (some action.actionId) none status 0
    actionId := some action.actionId
    movementId := none
    allocatedAmount := 0
    status := status
    method := none
    reason := reason }

def matchEdge (action : EconomicAction) (m : TokenMovement) (status : Status) (idx : Nat)
    (reason : String) : ActionMovementMatch :=
  { edgeId := computeEdgeId sha256 (some action.actionId) (some m.movementId) status idx
    actionId := some action.actionId
    movementId := some m.movementId
    allocatedAmount := m.amount
    status := status
    method := some (methodForMovement m)
    reason := reason }

def candidatesFor (action : EconomicAction) (movements : List TokenMovement) : List TokenMovement :=
  movements.filter fun m => lower m.txHash = lower action.txHash && 0 < m.amount

def amountOf (movements : List TokenMovement) : Int := (movements.map TokenMovement.amount).sum

def maxSubsetSize : Nat := 6

/-- The first combination, by size and then in list order, whose amounts sum to the target. -/
def findSubsetSummingTo (movements : List TokenMovement) (target : Int) (maxSize : Nat) :
    Option (List TokenMovement) :=
  if movements = [] ∨ target ≤ 0 then none
  else
    (List.range' 2 (min maxSize movements.length - 1)).findSome? fun size =>
      (combinations size movements).find? fun combo => amountOf combo = target

def partialEdges (action : EconomicAction) (subset : List TokenMovement) : List ActionMovementMatch :=
  subset.zipIdx.map fun (m, i) =>
    matchEdge sha256 action m .partialMatch i
      ("batched movement " ++ toString (i + 1) ++ "/" ++ toString subset.length)

def matchActionToMovements (action : EconomicAction) (movements : List TokenMovement) :
    List ActionMovementMatch :=
  if action.kind ∈ notExpectedKinds then
    [actionEdge sha256 action .notExpected (action.kind.value ++ " has no expected token movement")]
  else
    let candidates := candidatesFor action movements
    if candidates = [] then
      [actionEdge sha256 action .unmatched "no movements in tx for this action"]
    else
      let target := action.amountLink
      match candidates.filter (·.amount = target) with
      | [m] => [matchEdge sha256 action m .exact 0 "exact amount match"]
      | m :: m' :: more =>
          [matchEdge sha256 action m .ambiguous 0
            (toString (m :: m' :: more).length ++
              " movements match action amount; requires manual disambiguation")]
      | [] =>
          -- partial allocation is tried for positive targets only
          let subset := if 0 < target then findSubsetSummingTo candidates target maxSubsetSize else none
          match subset with
          | some (m :: m' :: more) => partialEdges sha256 action (m :: m' :: more)
          | _ =>
              [actionEdge sha256 action .unmatched
                ("no subset of " ++ toString candidates.length ++ " movements sums to " ++
                  toString target)]

def unexpectedEdge (m : TokenMovement) (i : Nat) : ActionMovementMatch :=
  { edgeId := computeEdgeId sha256 none (some m.movementId) .unexpected i
    actionId := none
    movementId := some m.movementId
    allocatedAmount := m.amount
    status := .unexpected
    method := some (methodForMovement m)
    reason := "movement with no matching action" }

def statusPriority : List Status :=
  [.unmatched, .unexpected, .ambiguous, .partialMatch, .notExpected, .exact]

def rollupStatus (edges : List ActionMovementMatch) : Status :=
  (statusPriority.find? fun s => s ∈ edges.map ActionMovementMatch.status).getD .exact

/-- The movements of the transaction that no action edge names, with their positions. -/
def unexpectedMovements (txHash : String) (matchedMovementIds : List String)
    (movements : List TokenMovement) : List (TokenMovement × Nat) :=
  movements.zipIdx.filter fun (m, _) =>
    lower m.txHash = txHash && !(m.movementId ∈ matchedMovementIds)

/-- `pool_balance_deltas` is informational and not modelled. -/
def matchTxEconomics (actions : List EconomicAction) (movements : List TokenMovement) :
    TxReconciliation :=
  let head := (actions.head?.map fun a => (a.chainId, a.blockNumber, a.txHash)).or
    (movements.head?.map fun m => (m.chainId, m.blockNumber, m.txHash))
  match head with
  | none =>
      { chainId := 0, blockNumber := 0, txHash := "", edges := [], actionsTotal := 0
        movementsTotal := 0, unmatchedActions := 0, unexpectedMovements := 0, overallStatus := .exact }
  | some (chainId, blockNumber, firstTxHash) =>
      let txHash := lower firstTxHash
      let actionEdges := actions.flatMap fun action => matchActionToMovements sha256 action movements
      let unexpected := unexpectedMovements txHash
        (actionEdges.filterMap ActionMovementMatch.movementId) movements
      let edges := actionEdges ++ unexpected.map fun (m, i) => unexpectedEdge sha256 m i
      { chainId := chainId
        blockNumber := blockNumber
        txHash := txHash
        edges := edges
        actionsTotal := actions.length
        movementsTotal := movements.length
        unmatchedActions := (edges.filter (·.status = .unmatched)).length
        unexpectedMovements := unexpected.length
        overallStatus := rollupStatus edges }

/-! ## Partitions -/

/-- `sorted(set(actions_by_tx.keys()) | set(movements_by_tx.keys()))`. -/
def allTxHashes (actionsByTx : Dict String (List EconomicAction))
    (movementsByTx : Dict String (List TokenMovement)) : List String :=
  (actionsByTx.keys ++ movementsByTx.keys.filter (· ∉ actionsByTx.keys)).insertionSort (· ≤ ·)

def countStatuses (recons : List TxReconciliation) : Dict Status Nat :=
  Dict.gather TxReconciliation.overallStatus (fun count _ => count.getD 0 + 1)
    (Dict.ofList (Status.all.map fun status => (status, 0))) recons

def passRate (countsByStatus : Dict Status Nat) (total : Nat) : ℚ :=
  let passCount := (countsByStatus.get? .exact).getD 0 + (countsByStatus.get? .notExpected).getD 0
  if 0 < total then passCount / total else 1

/-- The division of the pass rate is exact here. -/
def reconcilePartition (chainId fromBlock toBlock : Int)
    (actionsByTx : Option (Dict String (List EconomicAction)))
    (movementsByTx : Option (Dict String (List TokenMovement))) : PartitionReconciliation :=
  let actionsByTx := actionsByTx.getD Dict.empty
  let movementsByTx := movementsByTx.getD Dict.empty
  let txRecons := (allTxHashes actionsByTx movementsByTx).map fun txHash =>
    matchTxEconomics sha256 ((actionsByTx.get? txHash).getD []) ((movementsByTx.get? txHash).getD [])
  let countsByStatus := countStatuses txRecons
  { partitionId := sha256 (joinBar ["partition", toString chainId, toString fromBlock, toString toBlock])
    chainId := chainId
    blockRange := (fromBlock, toBlock)
    txRecons := txRecons
    passRate := passRate countsByStatus txRecons.length
    countsByStatus := countsByStatus }

end EconomicLedger.Model
