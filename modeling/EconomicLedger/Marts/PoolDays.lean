import EconomicLedger.Lib.Highest
import EconomicLedger.Matching.Settlement
import EconomicLedger.Model.Rollups

/-!
# The balance of a pool at the end of a day

`pool_economics` takes the highest snapshot of the pool over all days. This is the highest of the
day, and stays so as the history grows, when no other day goes higher.
-/

namespace EconomicLedger.Marts
open Model Relational Rollup Highest Matching

/-! ## Balances by day -/

def poolBalances (snapshots : List BalanceSnapshot) (pool : String) : List Int :=
  (snapshots.filter fun s => s.holderAddress = pool && s.tokenAddress = linkTokenAddress).map
    BalanceSnapshot.balance

def onDay (blocks : CanonicalBlocks) (day : Int) (s : BalanceSnapshot) : Bool :=
  blocks.rows.any fun cb =>
    cb.chainId = s.chainId && cb.blockNumber = s.blockNumber && dateFromSeconds cb.timestamp = day

/-- The balances of the pool in the snapshots of one day. -/
def dayBalances (snapshots : List BalanceSnapshot) (blocks : CanonicalBlocks) (pool : String)
    (day : Int) : List Int :=
  poolBalances (snapshots.filter (onDay blocks day)) pool

theorem endOfDayBalance_eq (snapshots : List BalanceSnapshot) (pool : String) :
    endOfDayBalance snapshots pool = highest (poolBalances snapshots pool) := rfl

theorem dayBalances_subset (snapshots : List BalanceSnapshot) (blocks : CanonicalBlocks) (pool : String)
    (day : Int) : dayBalances snapshots blocks pool day ⊆ poolBalances snapshots pool :=
  ((List.filter_sublist.filter _).map _).subset

theorem poolBalances_append (snapshots added : List BalanceSnapshot) (pool : String) :
    poolBalances (snapshots ++ added) pool =
      poolBalances snapshots pool ++ poolBalances added pool := by
  rw [poolBalances, List.filter_append, List.map_append]
  rfl

/-- The row shows the highest balance of its own day. -/
def DayLocal (snapshots : List BalanceSnapshot) (blocks : CanonicalBlocks) (row : PoolEconomicsRow) : Prop :=
  row.endOfDayBalance = highest (dayBalances snapshots blocks row.poolAddress row.snapshotDate)

theorem dayLocal_iff (actions : List EconomicActionRow) (blocks : CanonicalBlocks)
    (snapshots : List BalanceSnapshot) :
    (∀ row ∈ poolEconomics actions blocks snapshots, DayLocal snapshots blocks row) ↔
      ∀ pair ∈ innerJoin onActionBlock actions blocks.rows,
        Reaches (dayBalances snapshots blocks (poolDay pair).1 (poolDay pair).2)
          (poolBalances snapshots (poolDay pair).1) := by
  rw [poolEconomics, forall_groupRows_iff]
  apply forall₂_congr
  intro pair _
  exact highest_eq_iff (dayBalances_subset snapshots blocks _ _)

/-! ## Growing histories -/

def PoolEconomicsRow.key (row : PoolEconomicsRow) : String × Int := (row.poolAddress, row.snapshotDate)

theorem poolEconomics_row (actions : List EconomicActionRow) (blocks : CanonicalBlocks)
    (snapshots : List BalanceSnapshot) (key : String × Int) :
    (poolEconomics actions blocks snapshots).filter (PoolEconomicsRow.key · = key) =
      if (innerJoin onActionBlock actions blocks.rows).filter (poolDay · = key) = [] then []
      else [poolEconomicsRow snapshots key
        ((innerJoin onActionBlock actions blocks.rows).filter (poolDay · = key))] :=
  filter_groupRows poolDay (poolEconomicsRow snapshots) PoolEconomicsRow.key (fun _ _ => rfl) _ _

theorem joined_later (actions later : List EconomicActionRow) (blocks : CanonicalBlocks)
    (key : String × Int)
    (other : ∀ pair ∈ innerJoin onActionBlock later blocks.rows, poolDay pair ≠ key) :
    (innerJoin onActionBlock (actions ++ later) blocks.rows).filter (poolDay · = key) =
      (innerJoin onActionBlock actions blocks.rows).filter (poolDay · = key) := by
  have none : (innerJoin onActionBlock later blocks.rows).filter (poolDay · = key) = [] :=
    List.filter_eq_nil_iff.mpr fun pair member => by simpa using other pair member
  rw [innerJoin, List.flatMap_append, List.filter_append, ← innerJoin, ← innerJoin, none,
    List.append_nil]

/-- Later actions of other days leave a row as it is, and so do snapshots that go no higher than
those the pool has. -/
theorem row_unchanged_iff (actions later : List EconomicActionRow) (blocks : CanonicalBlocks)
    (snapshots added : List BalanceSnapshot) (key : String × Int)
    (other : ∀ pair ∈ innerJoin onActionBlock later blocks.rows, poolDay pair ≠ key) :
    (poolEconomics (actions ++ later) blocks (snapshots ++ added)).filter
        (PoolEconomicsRow.key · = key) =
      (poolEconomics actions blocks snapshots).filter (PoolEconomicsRow.key · = key) ↔
    (∃ pair ∈ innerJoin onActionBlock actions blocks.rows, poolDay pair = key) →
      Reaches (poolBalances snapshots key.1) (poolBalances (snapshots ++ added) key.1) := by
  have inside : poolBalances snapshots key.1 ⊆ poolBalances (snapshots ++ added) key.1 := by
    rw [poolBalances_append]
    exact List.subset_append_left _ _
  rw [poolEconomics_row, poolEconomics_row, joined_later actions later blocks key other]
  by_cases present : ∃ pair ∈ innerJoin onActionBlock actions blocks.rows, poolDay pair = key
  · obtain ⟨pair, member, own⟩ := present
    have nonempty : (innerJoin onActionBlock actions blocks.rows).filter (poolDay · = key) ≠ [] :=
      List.ne_nil_of_mem (List.mem_filter.mpr ⟨member, by simpa using own⟩)
    rw [if_neg nonempty, if_neg nonempty, ← highest_eq_iff inside]
    simp only [List.cons.injEq, and_true, poolEconomicsRow, PoolEconomicsRow.mk.injEq, true_and,
      endOfDayBalance_eq]
    exact ⟨fun same _ => same, fun same => same ⟨pair, member, own⟩⟩
  · have empty : (innerJoin onActionBlock actions blocks.rows).filter (poolDay · = key) = [] :=
      List.filter_eq_nil_iff.mpr fun pair member own => present ⟨pair, member, by simpa using own⟩
    rw [if_pos empty, if_pos empty]
    exact ⟨fun _ shown => absurd shown present, fun _ => rfl⟩

theorem pool_days_local_iff (actions later : List EconomicActionRow) (blocks : CanonicalBlocks)
    (snapshots added : List BalanceSnapshot) (key : String × Int)
    (other : ∀ pair ∈ innerJoin onActionBlock later blocks.rows, poolDay pair ≠ key) :
    ((∀ row ∈ poolEconomics actions blocks snapshots, DayLocal snapshots blocks row) ↔
      ∀ pair ∈ innerJoin onActionBlock actions blocks.rows,
        Reaches (dayBalances snapshots blocks (poolDay pair).1 (poolDay pair).2)
          (poolBalances snapshots (poolDay pair).1)) ∧
    ((poolEconomics (actions ++ later) blocks (snapshots ++ added)).filter
        (PoolEconomicsRow.key · = key) =
      (poolEconomics actions blocks snapshots).filter (PoolEconomicsRow.key · = key) ↔
    (∃ pair ∈ innerJoin onActionBlock actions blocks.rows, poolDay pair = key) →
      Reaches (poolBalances snapshots key.1) (poolBalances (snapshots ++ added) key.1)) :=
  ⟨dayLocal_iff actions blocks snapshots,
    row_unchanged_iff actions later blocks snapshots added key other⟩

/-! ### A higher balance on the next day -/

def twoDays : CanonicalBlocks where
  rows := [(100, 0), (200, 86400)].map fun (blockNumber, timestamp) =>
    { chainId := 1, blockNumber := blockNumber, blockHash := "0x0a", parentHash := "0x09"
      timestamp := timestamp, runPartitionId := "run" }
  unique := by decide

def daySnapshot (blockNumber balance : Int) : BalanceSnapshot :=
  { chainId := 1
    blockNumber := blockNumber
    tokenAddress := linkTokenAddress
    holderAddress := "0xb0"
    balance := balance
    runPartitionId := "run" }

def poolStake (actionId : String) (blockNumber : Int) : EconomicActionRow :=
  { action := { stakeOf actionId 5 with blockNumber := blockNumber }
    runPartitionId := "run" }

theorem pool_days_local_next :
    (∀ pair ∈ innerJoin onActionBlock [poolStake "a2" 200] twoDays.rows, poolDay pair ≠ ("0xb0", 0)) ∧
    (∀ row ∈ poolEconomics [poolStake "a1" 100] twoDays [daySnapshot 100 5],
      DayLocal [daySnapshot 100 5] twoDays row) ∧
    (poolEconomics ([poolStake "a1" 100] ++ [poolStake "a2" 200]) twoDays
          ([daySnapshot 100 5] ++ [daySnapshot 200 3])).filter
        (PoolEconomicsRow.key · = ("0xb0", 0)) =
      (poolEconomics [poolStake "a1" 100] twoDays [daySnapshot 100 5]).filter
        (PoolEconomicsRow.key · = ("0xb0", 0)) := by
  have other : ∀ pair ∈ innerJoin onActionBlock [poolStake "a2" 200] twoDays.rows,
      poolDay pair ≠ ("0xb0", 0) := by decide +kernel
  obtain ⟨dayLocal, unchanged⟩ := pool_days_local_iff [poolStake "a1" 100] [poolStake "a2" 200] twoDays
    [daySnapshot 100 5] [daySnapshot 200 3] ("0xb0", 0) other
  refine ⟨other, dayLocal.mpr ?_, unchanged.mpr fun _ => ?_⟩
  · unfold Reaches
    decide +kernel
  · unfold Reaches
    decide +kernel

/-- The row of the first day takes the balance of the second. -/
theorem next_day_raises_balance :
    (poolEconomics [poolStake "a1" 100] twoDays [daySnapshot 100 5]).map
      PoolEconomicsRow.endOfDayBalance = [5] ∧
    (poolEconomics [poolStake "a1" 100] twoDays [daySnapshot 100 5, daySnapshot 200 9]).map
      PoolEconomicsRow.endOfDayBalance = [9] ∧
    highest (dayBalances [daySnapshot 100 5, daySnapshot 200 9] twoDays "0xb0" 0) = 5 := by
  decide +kernel

end EconomicLedger.Marts
