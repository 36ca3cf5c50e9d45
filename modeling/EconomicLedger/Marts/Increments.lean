import EconomicLedger.Lib.Rollup
import EconomicLedger.Model.Rollups
import Mathlib.Algebra.Group.Prod

/-!
# Incremental runs of the daily rollups

An incremental run groups the rows above the cut and merges the result by key, so a day that lies
on both sides of the cut keeps what lies above it only.
-/

namespace EconomicLedger.Marts
open Model Relational Rollup

/-! ## Keys and totals -/

def walletKey (r : WalletEconomicsRow) : String × Int := (r.wallet, r.snapshotDate)

def walletTotals (r : WalletEconomicsRow) : Int × Int × Int × Int :=
  (r.totalStaked, r.totalClaimed, r.totalSlashed, r.netFlow)

def poolKey (r : PoolEconomicsRow) : String × Int := (r.poolAddress, r.snapshotDate)

def poolTotals (r : PoolEconomicsRow) : Int × Int := (r.rewardsDistributed, r.slashesApplied)

/-! ## Incremental runs -/

/-- The table an incremental run leaves, over a table built from the rows up to the watermark. -/
def mergedWalletEconomics (watermark : Int) (flows : List StakingLinkFlowRow)
    (blocks : CanonicalBlocks) : List WalletEconomicsRow :=
  mergeOn walletKey (walletEconomics (flows.filter (·.blockNumber ≤ watermark)) blocks)
    (walletEconomics (flows.filter (incrementalBlockPredicate watermark ·.blockNumber)) blocks)

def mergedPoolEconomics (watermark : Int) (actions : List EconomicActionRow)
    (blocks : CanonicalBlocks) (snapshots : List BalanceSnapshot) : List PoolEconomicsRow :=
  mergeOn poolKey
    (poolEconomics (actions.filter (·.action.blockNumber ≤ watermark)) blocks snapshots)
    (poolEconomics
      (actions.filter (incrementalBlockPredicate watermark ·.action.blockNumber)) blocks snapshots)

def walletTotalsAt (table : List WalletEconomicsRow) (key : String × Int) :
    List (Int × Int × Int × Int) :=
  (table.filter (walletKey · = key)).map walletTotals

def poolTotalsAt (table : List PoolEconomicsRow) (key : String × Int) : List (Int × Int) :=
  (table.filter (poolKey · = key)).map poolTotals

/-! ## Totals as sums -/

def flowMeasure (pair : FlowOnBlock) : Int × Int × Int × Int :=
  (if pair.1.flowType = "stake" then pair.1.amountLink else 0,
    if pair.1.flowType = "reward_claimed" then pair.1.amountLink else 0,
    if pair.1.flowType = "slashed" then pair.1.amountLink else 0,
    signedFlow pair.1)

def actionMeasure (pair : ActionOnBlock) : Int × Int :=
  (if pair.1.action.kind = .rewardAccrued then pair.1.action.amountLink else 0,
    if pair.1.action.kind = .slashed then pair.1.action.amountLink else 0)

theorem walletTotals_row (key : String × Int) (group : List FlowOnBlock) :
    walletTotals (walletEconomicsRow key group) = (group.map flowMeasure).sum := by
  induction group with
  | nil => rfl
  | cons pair rest ih =>
      rw [List.map_cons, List.sum_cons, ← ih]
      simp [walletTotals, walletEconomicsRow, flowSum, sumWhen, flowMeasure]

theorem poolTotals_row (snapshots : List BalanceSnapshot) (key : String × Int)
    (group : List ActionOnBlock) :
    poolTotals (poolEconomicsRow snapshots key group) = (group.map actionMeasure).sum := by
  induction group with
  | nil => rfl
  | cons pair rest ih =>
      rw [List.map_cons, List.sum_cons, ← ih]
      simp [poolTotals, poolEconomicsRow, actionSum, sumWhen, actionMeasure]

/-! ## When an incremental run agrees -/

def selectedFlow (watermark : Int) (pair : FlowOnBlock) : Bool :=
  incrementalBlockPredicate watermark pair.1.blockNumber

def selectedAction (watermark : Int) (pair : ActionOnBlock) : Bool :=
  incrementalBlockPredicate watermark pair.1.action.blockNumber

def unselectedFlows (watermark : Int) (flows : List StakingLinkFlowRow) (blocks : CanonicalBlocks)
    (key : String × Int) : List FlowOnBlock :=
  (innerJoin onFlowBlock flows blocks.rows).filter fun pair =>
    walletDay pair = key && !selectedFlow watermark pair

def unselectedActions (watermark : Int) (actions : List EconomicActionRow) (blocks : CanonicalBlocks)
    (key : String × Int) : List ActionOnBlock :=
  (innerJoin onActionBlock actions blocks.rows).filter fun pair =>
    poolDay pair = key && !selectedAction watermark pair

/-- Where a wallet's day is grouped again, the rows left out add up to nothing. -/
def WalletDaysWhole (watermark : Int) (flows : List StakingLinkFlowRow) (blocks : CanonicalBlocks) :
    Prop :=
  ∀ key, (∃ pair ∈ innerJoin onFlowBlock flows blocks.rows,
      walletDay pair = key ∧ selectedFlow watermark pair = true) →
    flowSum "stake" (unselectedFlows watermark flows blocks key) = 0 ∧
    flowSum "reward_claimed" (unselectedFlows watermark flows blocks key) = 0 ∧
    flowSum "slashed" (unselectedFlows watermark flows blocks key) = 0 ∧
    ((unselectedFlows watermark flows blocks key).map fun pair => signedFlow pair.1).sum = 0

/-- The same for a pool. -/
def PoolDaysWhole (watermark : Int) (actions : List EconomicActionRow) (blocks : CanonicalBlocks) :
    Prop :=
  ∀ key, (∃ pair ∈ innerJoin onActionBlock actions blocks.rows,
      poolDay pair = key ∧ selectedAction watermark pair = true) →
    actionSum .rewardAccrued (unselectedActions watermark actions blocks key) = 0 ∧
    actionSum .slashed (unselectedActions watermark actions blocks key) = 0

theorem flowMeasure_eq_zero_iff (group : List FlowOnBlock) :
    (group.map flowMeasure).sum = 0 ↔
      flowSum "stake" group = 0 ∧ flowSum "reward_claimed" group = 0 ∧ flowSum "slashed" group = 0 ∧
        (group.map fun pair => signedFlow pair.1).sum = 0 := by
  rw [← walletTotals_row ("", 0) group]
  simp only [walletTotals, walletEconomicsRow, Prod.mk_eq_zero]

theorem actionMeasure_eq_zero_iff (group : List ActionOnBlock) :
    (group.map actionMeasure).sum = 0 ↔
      actionSum .rewardAccrued group = 0 ∧ actionSum .slashed group = 0 := by
  rw [← poolTotals_row [] ("", 0) group]
  simp only [poolTotals, poolEconomicsRow, Prod.mk_eq_zero]

theorem walletEconomics_merge_iff (watermark : Int) (flows : List StakingLinkFlowRow)
    (blocks : CanonicalBlocks) :
    (∀ key, walletTotalsAt (mergedWalletEconomics watermark flows blocks) key =
        walletTotalsAt (walletEconomics flows blocks) key) ↔
      WalletDaysWhole watermark flows blocks := by
  have merged := merge_totals_iff walletDay walletEconomicsRow walletKey (fun _ _ => rfl) flowMeasure
    walletTotals walletTotals_row (innerJoin onFlowBlock flows blocks.rows)
    (fun pair => decide (pair.1.blockNumber ≤ watermark)) (selectedFlow watermark) (by
      intro pair _ early
      simp only [selectedFlow, incrementalBlockPredicate, decide_eq_false_iff_not] at early
      exact decide_eq_true (by omega))
  simp only [walletTotalsAt, mergedWalletEconomics, walletEconomics, innerJoin_filter,
    WalletDaysWhole, ← flowMeasure_eq_zero_iff]
  exact merged

theorem poolEconomics_merge_iff (watermark : Int) (actions : List EconomicActionRow)
    (blocks : CanonicalBlocks) (snapshots : List BalanceSnapshot) :
    (∀ key, poolTotalsAt (mergedPoolEconomics watermark actions blocks snapshots) key =
        poolTotalsAt (poolEconomics actions blocks snapshots) key) ↔
      PoolDaysWhole watermark actions blocks := by
  have merged := merge_totals_iff poolDay (poolEconomicsRow snapshots) poolKey (fun _ _ => rfl)
    actionMeasure poolTotals (poolTotals_row snapshots) (innerJoin onActionBlock actions blocks.rows)
    (fun pair => decide (pair.1.action.blockNumber ≤ watermark)) (selectedAction watermark) (by
      intro pair _ early
      simp only [selectedAction, incrementalBlockPredicate, decide_eq_false_iff_not] at early
      exact decide_eq_true (by omega))
  simp only [poolTotalsAt, mergedPoolEconomics, poolEconomics, innerJoin_filter, PoolDaysWhole,
    ← actionMeasure_eq_zero_iff]
  exact merged

theorem daily_rollups_incremental_iff (watermark : Int) (flows : List StakingLinkFlowRow)
    (actions : List EconomicActionRow) (blocks : CanonicalBlocks) (snapshots : List BalanceSnapshot) :
    ((∀ key, walletTotalsAt (mergedWalletEconomics watermark flows blocks) key =
        walletTotalsAt (walletEconomics flows blocks) key) ∧
      ∀ key, poolTotalsAt (mergedPoolEconomics watermark actions blocks snapshots) key =
        poolTotalsAt (poolEconomics actions blocks snapshots) key) ↔
      WalletDaysWhole watermark flows blocks ∧ PoolDaysWhole watermark actions blocks :=
  and_congr (walletEconomics_merge_iff watermark flows blocks)
    (poolEconomics_merge_iff watermark actions blocks snapshots)

/-! ### A day on both sides of the cut -/

def stakeRow (eventId : String) (blockNumber amount : Int) : StakingLinkFlowRow :=
  { eventId := eventId
    wallet := "0xaa"
    flowType := "stake"
    amountLink := amount
    txHash := eventId
    blockNumber := blockNumber
    reconciliationStatus := "exact"
    runPartitionId := "run" }

def slashRow (eventId : String) (blockNumber amount : Int) : EconomicActionRow :=
  { action := { actionId := eventId
                kind := .slashed
                chainId := 1
                blockNumber := blockNumber
                txHash := eventId
                logIndex := 0
                contractAddress := "0xb0"
                poolRole := "community_pool"
                wallet := none
                amountLink := amount
                sourceEventSignature := ""
                rawLogId := eventId
                decodedEventId := eventId }
    runPartitionId := "run" }

def oneDay : CanonicalBlocks where
  rows := [10, 100].map fun blockNumber =>
    { chainId := 1, blockNumber := blockNumber, blockHash := "0x0a", parentHash := "0x09"
      timestamp := 12 * blockNumber, runPartitionId := "run" }
  unique := by decide

/-- The amounts of block 10 are lost, in both tables. -/
theorem day_cut_in_two :
    walletTotalsAt (mergedWalletEconomics 90 [stakeRow "a" 10 5, stakeRow "b" 100 7] oneDay)
        ("0xaa", 0) = [(7, 0, 0, -7)] ∧
    walletTotalsAt (walletEconomics [stakeRow "a" 10 5, stakeRow "b" 100 7] oneDay) ("0xaa", 0) =
        [(12, 0, 0, -12)] ∧
    poolTotalsAt (mergedPoolEconomics 90 [slashRow "a" 10 5, slashRow "b" 100 7] oneDay [])
        ("0xb0", 0) = [(0, 7)] ∧
    poolTotalsAt (poolEconomics [slashRow "a" 10 5, slashRow "b" 100 7] oneDay []) ("0xb0", 0) =
        [(0, 12)] := by
  decide +kernel

end EconomicLedger.Marts
