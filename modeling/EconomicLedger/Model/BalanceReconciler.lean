import EconomicLedger.Model.Movements

/-!
# Pool balances (`reconciliation/balance_reconciler.py`)
-/

namespace EconomicLedger.Model
open Text

/-- `get_token_balance`, by token, holder and block number. -/
abbrev BalanceProvider := String → String → Int → Int

structure BalanceVerification where
  chainId : Int
  poolAddress : String
  blockNumber : Int
  expectedDelta : Int
  observedBalanceDelta : Int
  isConsistent : Bool
  diff : Int
deriving Repr, DecidableEq

structure PoolReconciliation where
  chainId : Int
  poolAddress : String
  fromBlock : Int
  toBlock : Int
  netMovements : Int
  startBalance : Int
  endBalance : Int
  isConsistent : Bool
  diff : Int
deriving Repr, DecidableEq

def verifyPoolBalance (client : BalanceProvider) (tokenAddress poolAddress : String)
    (blockNumber expectedDelta priorBlockNumber : Int) : BalanceVerification :=
  let priorBalance := client tokenAddress poolAddress priorBlockNumber
  let currentBalance := client tokenAddress poolAddress blockNumber
  let observed := currentBalance - priorBalance
  let diff := observed - expectedDelta
  { chainId := 1
    poolAddress := lower poolAddress
    blockNumber := blockNumber
    expectedDelta := expectedDelta
    observedBalanceDelta := observed
    isConsistent := diff = 0
    diff := diff }

def reconcilePoolMovementVsBalance (client : BalanceProvider) (tokenAddress poolAddress : String)
    (movements : List TokenMovement) (fromBlock toBlock : Int) : PoolReconciliation :=
  let poolLower := lower poolAddress
  let netMovements := computeBalanceDelta movements poolLower fromBlock toBlock
  let startBalance := client tokenAddress poolLower (fromBlock - 1)
  let endBalance := client tokenAddress poolLower toBlock
  let observedDelta := endBalance - startBalance
  let diff := observedDelta - netMovements
  { chainId := 1
    poolAddress := poolLower
    fromBlock := fromBlock
    toBlock := toBlock
    netMovements := netMovements
    startBalance := startBalance
    endBalance := endBalance
    isConsistent := diff = 0
    diff := diff }

end EconomicLedger.Model
