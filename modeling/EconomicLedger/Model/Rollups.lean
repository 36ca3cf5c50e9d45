import EconomicLedger.Lib.Rollup
import EconomicLedger.Lib.Window
import EconomicLedger.Model.Marts
import Mathlib.Algebra.Order.Ring.Rat

/-!
# Rollups and balance checks (`models/marts/ledger_entries.sql`, `models/marts/wallet_economics.sql`,
`models/marts/pool_economics.sql`, `models/intermediate/int_pool_balance_deltas.sql`,
`models/analytics/apy_realized_by_pool.sql`)
-/

namespace EconomicLedger.Model
open Text Relational Rollup

/-- `date_from_seconds`: the day, counted from 1970-01-01. -/
def dateFromSeconds (timestamp : Int) : Int := timestamp / 86400

def maxText (texts : List String) : String := texts.foldl (fun a b => if a < b then b else a) ""

/-- `SUM(CASE WHEN p THEN amount ELSE 0 END)`. -/
def sumWhen {β : Type} (p : β → Bool) (amount : β → Int) (rows : List β) : Int :=
  (rows.map fun r => if p r then amount r else 0).sum

/-- `incremental_block_predicate`, on the highest block already there. -/
def incrementalBlockPredicate (watermark blockNumber : Int) : Bool := watermark - 50 < blockNumber

/-! ## `ledger_entries` -/

structure LedgerEntryRow where
  entry : LedgerEntry
  runPartitionId : String
deriving Repr, DecidableEq

/-- What a run reads: the rows that have arrived and the canonical blocks. -/
structure LedgerSource where
  rows : List LedgerEntryRow
  blocks : CanonicalBlocks

def onEntryBlock (le : LedgerEntryRow) (cb : CanonicalBlock) : Bool :=
  cb.chainId = le.entry.chainId && cb.blockNumber = le.entry.blockNumber

def LedgerSource.visible (source : LedgerSource) : List LedgerEntryRow :=
  (innerJoin onEntryBlock source.rows source.blocks.rows).map Prod.fst

/-- `COALESCE(MAX(block_number), 0)`. -/
def watermarkOf (this : List LedgerEntryRow) : Int :=
  ((this.map fun le => le.entry.blockNumber).max?).getD 0

/-- The table after a run; there is none before the first. -/
def ledgerEntriesMart (this : Option (List LedgerEntryRow)) (source : LedgerSource) : List LedgerEntryRow :=
  match this with
  | none => source.visible
  | some table =>
      mergeOn (fun le => le.entry.entryId) table
        (source.visible.filter fun le =>
          incrementalBlockPredicate (watermarkOf table) le.entry.blockNumber)

/-! ## `wallet_economics` -/

structure WalletEconomicsRow where
  wallet : String
  snapshotDate : Int
  totalStaked : Int
  totalClaimed : Int
  totalSlashed : Int
  netFlow : Int
  runPartitionId : String
deriving Repr, DecidableEq

def onFlowBlock (f : StakingLinkFlowRow) (cb : CanonicalBlock) : Bool := cb.blockNumber = f.blockNumber

abbrev FlowOnBlock := StakingLinkFlowRow × CanonicalBlock

def walletDay (pair : FlowOnBlock) : String × Int :=
  (pair.1.wallet, dateFromSeconds pair.2.timestamp)

def flowSum (flowType : String) (group : List FlowOnBlock) : Int :=
  sumWhen (fun pair => pair.1.flowType = flowType) (fun pair => pair.1.amountLink) group

def signedFlow (f : StakingLinkFlowRow) : Int :=
  if f.flowType ∈ ["stake"] then -f.amountLink
  else if f.flowType ∈ ["unstake_finalized", "reward_claimed"] then f.amountLink
  else 0

def walletEconomicsRow (key : String × Int) (group : List FlowOnBlock) : WalletEconomicsRow :=
  { wallet := key.1
    snapshotDate := key.2
    totalStaked := flowSum "stake" group
    totalClaimed := flowSum "reward_claimed" group
    totalSlashed := flowSum "slashed" group
    netFlow := (group.map fun pair => signedFlow pair.1).sum
    runPartitionId := maxText (group.map fun pair => pair.1.runPartitionId) }

def walletEconomics (flows : List StakingLinkFlowRow) (blocks : CanonicalBlocks) :
    List WalletEconomicsRow :=
  groupRows walletDay walletEconomicsRow (innerJoin onFlowBlock flows blocks.rows)

/-! ## `pool_economics` -/

structure BalanceSnapshot where
  chainId : Int
  blockNumber : Int
  tokenAddress : String
  holderAddress : String
  balance : Int
  runPartitionId : String
deriving Repr, DecidableEq

def stgBalanceSnapshots (snapshots : List BalanceSnapshot) : List BalanceSnapshot :=
  snapshots.map fun s =>
    { s with tokenAddress := lower s.tokenAddress, holderAddress := lower s.holderAddress }

def linkTokenAddress : String := "0x514910771af9ca656af840dff83e8264ecf986ca"

structure PoolEconomicsRow where
  poolAddress : String
  snapshotDate : Int
  rewardsDistributed : Int
  slashesApplied : Int
  endOfDayBalance : Int
  runPartitionId : String
deriving Repr, DecidableEq

def onActionBlock (a : EconomicActionRow) (cb : CanonicalBlock) : Bool :=
  cb.blockNumber = a.action.blockNumber

abbrev ActionOnBlock := EconomicActionRow × CanonicalBlock

def poolDay (pair : ActionOnBlock) : String × Int :=
  (pair.1.action.contractAddress, dateFromSeconds pair.2.timestamp)

def actionSum (kind : ActionKind) (group : List ActionOnBlock) : Int :=
  sumWhen (fun pair => pair.1.action.kind = kind) (fun pair => pair.1.action.amountLink) group

/-- The highest balance of the holder in any snapshot, not only in those of the day. -/
def endOfDayBalance (snapshots : List BalanceSnapshot) (holder : String) : Int :=
  ((snapshots.filter fun s => s.holderAddress = holder && s.tokenAddress = linkTokenAddress).map
    BalanceSnapshot.balance).max?.getD 0

def poolEconomicsRow (snapshots : List BalanceSnapshot) (key : String × Int)
    (group : List ActionOnBlock) : PoolEconomicsRow :=
  { poolAddress := key.1
    snapshotDate := key.2
    rewardsDistributed := actionSum .rewardAccrued group
    slashesApplied := actionSum .slashed group
    endOfDayBalance := endOfDayBalance snapshots key.1
    runPartitionId := maxText (group.map fun pair => pair.1.runPartitionId) }

def poolEconomics (actions : List EconomicActionRow) (blocks : CanonicalBlocks)
    (snapshots : List BalanceSnapshot) : List PoolEconomicsRow :=
  groupRows poolDay (poolEconomicsRow snapshots) (innerJoin onActionBlock actions blocks.rows)

/-! ## `int_pool_balance_deltas` -/

def intTokenMovements (movements : List TokenMovement) : List TokenMovement :=
  movements.map fun m =>
    { m with
      tokenAddress := lower m.tokenAddress
      fromAddr := lower m.fromAddr
      toAddr := lower m.toAddr }

structure BalanceDiff where
  poolAddress : String
  blockNumber : Int
  balance : Int
  observedDelta : Option Int
  prevBlock : Option Int
  runPartitionId : String
deriving Repr, DecidableEq

def balanceDiff (pair : Option BalanceSnapshot × BalanceSnapshot) : BalanceDiff :=
  { poolAddress := pair.2.holderAddress
    blockNumber := pair.2.blockNumber
    balance := pair.2.balance
    observedDelta := pair.1.map fun prev => pair.2.balance - prev.balance
    prevBlock := pair.1.map BalanceSnapshot.blockNumber
    runPartitionId := pair.2.runPartitionId }

def linkSnapshots (snapshots : List BalanceSnapshot) : List BalanceSnapshot :=
  snapshots.filter (·.tokenAddress = linkTokenAddress)

/-- Partitioned by holder, each partition in the order of its blocks. -/
def balanceDiffs (snapshots : List BalanceSnapshot) : List BalanceDiff :=
  (Dict.groupBy BalanceSnapshot.holderAddress (linkSnapshots snapshots)).values.flatMap fun rows =>
    (Window.lag (rows.insertionSort (·.blockNumber ≤ ·.blockNumber))).map balanceDiff

structure MovementLeg where
  addr : String
  blockNumberEnd : Int
  netAmount : Int
deriving Repr, DecidableEq

def movementLegs (movements : List TokenMovement) : List MovementLeg :=
  (movements.map fun m => { addr := m.toAddr, blockNumberEnd := m.blockNumber, netAmount := m.amount }) ++
    movements.map fun m => { addr := m.fromAddr, blockNumberEnd := m.blockNumber, netAmount := -m.amount }

structure NetMovement where
  poolAddress : String
  blockNumber : Int
  netAmount : Int
deriving Repr, DecidableEq

def MovementLeg.at (leg : MovementLeg) : String × Int := (leg.addr, leg.blockNumberEnd)

def netMovement (key : String × Int) (legs : List MovementLeg) : NetMovement :=
  { poolAddress := key.1
    blockNumber := key.2
    netAmount := (legs.map MovementLeg.netAmount).sum }

def netMovements (movements : List TokenMovement) : List NetMovement :=
  groupRows MovementLeg.at netMovement (movementLegs movements)

structure PoolBalanceDeltaRow where
  poolAddress : String
  blockNumber : Int
  balance : Int
  observedDelta : Option Int
  prevBlock : Int
  netMovementAmount : Int
  runPartitionId : String
deriving Repr, DecidableEq

def onPoolBlock (bd : BalanceDiff) (nm : NetMovement) : Bool :=
  bd.poolAddress = nm.poolAddress && bd.blockNumber = nm.blockNumber

/-- The first snapshot of a pool is not selected. -/
def poolBalanceDelta (joined : BalanceDiff × Option NetMovement) : Option PoolBalanceDeltaRow :=
  joined.1.prevBlock.map fun prevBlock =>
    { poolAddress := joined.1.poolAddress
      blockNumber := joined.1.blockNumber
      balance := joined.1.balance
      observedDelta := joined.1.observedDelta
      prevBlock := prevBlock
      netMovementAmount := (joined.2.map NetMovement.netAmount).getD 0
      runPartitionId := joined.1.runPartitionId }

def intPoolBalanceDeltas (movements : List TokenMovement) (snapshots : List BalanceSnapshot) :
    List PoolBalanceDeltaRow :=
  (leftJoin onPoolBlock (balanceDiffs snapshots) (netMovements movements)).filterMap poolBalanceDelta

/-! ## `apy_realized_by_pool` -/

structure StakeChange where
  wallet : String
  txHash : String
  blockNumber : Int
  timestamp : Int
  principalDelta : Int
  runPartitionId : String
deriving Repr, DecidableEq

structure ClaimedReward where
  wallet : String
  timestamp : Int
  amountLink : Int
  runPartitionId : String
deriving Repr, DecidableEq

structure ApyRow where
  snapshotDate : Int
  netPrincipalDelta : Int
  rewardsDistributed : Int
  rewardYieldProxyAnnualized : Option ℚ
deriving DecidableEq

def principalDelta (f : StakingLinkFlowRow) : Int :=
  if f.flowType = "stake" then f.amountLink
  else if f.flowType = "unstake_finalized" then -f.amountLink
  else 0

def stakeChange (pair : FlowOnBlock) : StakeChange :=
  { wallet := pair.1.wallet
    txHash := pair.1.txHash
    blockNumber := pair.1.blockNumber
    timestamp := pair.2.timestamp
    principalDelta := principalDelta pair.1
    runPartitionId := pair.1.runPartitionId }

def claimedReward (pair : FlowOnBlock) : ClaimedReward :=
  { wallet := pair.1.wallet
    timestamp := pair.2.timestamp
    amountLink := pair.1.amountLink
    runPartitionId := pair.1.runPartitionId }

def flowsOfType (flowTypes : List String) (flows : List StakingLinkFlowRow) (blocks : CanonicalBlocks) :
    List FlowOnBlock :=
  (innerJoin onFlowBlock flows blocks.rows).filter fun pair => pair.1.flowType ∈ flowTypes

def stakeChanges (flows : List StakingLinkFlowRow) (blocks : CanonicalBlocks) : List StakeChange :=
  (flowsOfType ["stake", "unstake_finalized"] flows blocks).map stakeChange

def claimedRewards (flows : List StakingLinkFlowRow) (blocks : CanonicalBlocks) : List ClaimedReward :=
  (flowsOfType ["reward_claimed"] flows blocks).map claimedReward

def onStakeTime (c : CanonicalBlock) (s : StakeChange) : Bool := s.timestamp = c.timestamp

abbrev BlockChange := CanonicalBlock × Option StakeChange

def onRewardTime (row : BlockChange) (r : ClaimedReward) : Bool := r.timestamp = row.1.timestamp

/-- Both joins are on the timestamp of the block. -/
def apyJoin (flows : List StakingLinkFlowRow) (blocks : CanonicalBlocks) :
    List (BlockChange × Option ClaimedReward) :=
  leftJoin onRewardTime (leftJoin onStakeTime blocks.rows (stakeChanges flows blocks))
    (claimedRewards flows blocks)

def apyDay (row : BlockChange × Option ClaimedReward) : Int := dateFromSeconds row.1.1.timestamp

/-- The yield is `NULL` without a change of principal. -/
def apyRow (snapshotDate : Int) (group : List (BlockChange × Option ClaimedReward)) : ApyRow :=
  let net := (group.map fun row => (row.1.2.map StakeChange.principalDelta).getD 0).sum
  let rewards := (group.map fun row => (row.2.map ClaimedReward.amountLink).getD 0).sum
  { snapshotDate := snapshotDate
    netPrincipalDelta := net
    rewardsDistributed := rewards
    rewardYieldProxyAnnualized := if net = 0 then none else some ((rewards : ℚ) * 31536000 / net) }

def apyRealizedByPool (flows : List StakingLinkFlowRow) (blocks : CanonicalBlocks) : List ApyRow :=
  (groupRows apyDay apyRow (apyJoin flows blocks)).insertionSort
    fun r r' => r'.snapshotDate ≤ r.snapshotDate

end EconomicLedger.Model
