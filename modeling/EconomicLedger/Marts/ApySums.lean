import EconomicLedger.Marts.Increments
import EconomicLedger.Model.Rollups
import Mathlib.Algebra.Module.BigOperators

/-!
# Fan-out in `apy_realized_by_pool`

Stakes and claims are both joined to the blocks of their timestamp, so a stake is counted once for
every claim beside it and a claim once for every stake. A day's sums are the plain ones exactly when
the surplus copies cancel.
-/

namespace EconomicLedger.Marts
open Model Relational Rollup

variable (flows : List StakingLinkFlowRow) (blocks : CanonicalBlocks)

/-! ## Sums by block -/

def onDate (date : Int) (cb : CanonicalBlock) : Bool := dateFromSeconds cb.timestamp = date

/-- The joined rows of some flow types at a timestamp. -/
def atTime (flowTypes : List String) (timestamp : Int) : List FlowOnBlock :=
  (flowsOfType flowTypes flows blocks).filter (·.2.timestamp = timestamp)

def fanOut (flowTypes : List String) (timestamp : Int) : Nat :=
  max 1 (atTime flows blocks flowTypes timestamp).length

theorem filter_onStakeTime (c : CanonicalBlock) :
    (stakeChanges flows blocks).filter (onStakeTime c) =
      (atTime flows blocks ["stake", "unstake_finalized"] c.timestamp).map stakeChange := by
  rw [stakeChanges, List.filter_map]
  rfl

theorem filter_onRewardTime (row : BlockChange) :
    (claimedRewards flows blocks).filter (onRewardTime row) =
      (atTime flows blocks ["reward_claimed"] row.1.timestamp).map claimedReward := by
  rw [claimedRewards, List.filter_map]
  rfl

theorem apyJoin_date (date : Int) : (apyJoin flows blocks).filter (apyDay · = date) =
    leftJoin onRewardTime
      (leftJoin onStakeTime (blocks.rows.filter (onDate date)) (stakeChanges flows blocks))
      (claimedRewards flows blocks) := by
  rw [leftJoin_filter, leftJoin_filter]
  rfl

theorem net_by_block (date : Int) :
    (apyRow date ((apyJoin flows blocks).filter (apyDay · = date))).netPrincipalDelta =
      ((blocks.rows.filter (onDate date)).map fun c => fanOut flows blocks ["reward_claimed"] c.timestamp •
        ((atTime flows blocks ["stake", "unstake_finalized"] c.timestamp).map
          fun pair => principalDelta pair.1).sum).sum := by
  rw [apyJoin_date]
  calc _ = ((leftJoin onStakeTime (blocks.rows.filter (onDate date)) (stakeChanges flows blocks)).map
        fun row => fanOut flows blocks ["reward_claimed"] row.1.timestamp •
          (row.2.map StakeChange.principalDelta).getD 0).sum := by
        refine (sum_leftJoin_left onRewardTime
          (fun row : BlockChange => (row.2.map StakeChange.principalDelta).getD 0) _ _).trans ?_
        simp only [filter_onRewardTime, List.length_map, fanOut]
    _ = ((leftJoin onStakeTime (blocks.rows.filter (onDate date)) (stakeChanges flows blocks)).map
        fun row => (row.2.map fun s => fanOut flows blocks ["reward_claimed"] row.1.timestamp •
          s.principalDelta).getD 0).sum := by
        apply congrArg List.sum
        apply List.map_congr_left
        rintro ⟨c, s⟩ _
        cases s <;> simp
    _ = _ := by
        rw [sum_leftJoin_right onStakeTime fun c s =>
          fanOut flows blocks ["reward_claimed"] c.timestamp • s.principalDelta]
        apply congrArg List.sum
        apply List.map_congr_left
        intro c _
        rw [filter_onStakeTime, List.smul_sum, List.map_map, List.map_map]
        rfl

theorem rewards_by_block (date : Int) :
    (apyRow date ((apyJoin flows blocks).filter (apyDay · = date))).rewardsDistributed =
      ((blocks.rows.filter (onDate date)).map fun c =>
        fanOut flows blocks ["stake", "unstake_finalized"] c.timestamp •
          ((atTime flows blocks ["reward_claimed"] c.timestamp).map
            fun pair => pair.1.amountLink).sum).sum := by
  rw [apyJoin_date]
  calc _ = ((leftJoin onStakeTime (blocks.rows.filter (onDate date)) (stakeChanges flows blocks)).map
        fun row => ((atTime flows blocks ["reward_claimed"] row.1.timestamp).map
          fun pair => pair.1.amountLink).sum).sum := by
        refine (sum_leftJoin_right onRewardTime (fun _ r => r.amountLink) _ _).trans ?_
        simp only [filter_onRewardTime, List.map_map]
        rfl
    _ = _ := by
        rw [sum_leftJoin_left onStakeTime fun c => ((atTime flows blocks ["reward_claimed"] c.timestamp).map
          fun pair => pair.1.amountLink).sum]
        simp only [filter_onStakeTime, List.length_map, fanOut]

/-! ## Copies of a flow -/

/-- A canonical block of the flow's number is on the date. -/
def flowOnDate (date : Int) (f : StakingLinkFlowRow) : Bool :=
  blocks.rows.any fun cb => onFlowBlock f cb && onDate date cb

/-- How often a flow is counted beside the rows of the other flow types: for every canonical block of
its number, once for every canonical block of the same time and every row beside it. -/
def copies (others : List String) (f : StakingLinkFlowRow) : Nat :=
  ((blocks.rows.filter (onFlowBlock f)).map fun cb =>
    (blocks.rows.filter (·.timestamp = cb.timestamp)).length * fanOut flows blocks others cb.timestamp).sum

/-- Where number and time tell the blocks apart, only the rows beside a flow multiply it. -/
theorem copies_single (others : List String) (f : StakingLinkFlowRow) (cb : CanonicalBlock)
    (own : blocks.rows.filter (onFlowBlock f) = [cb])
    (alone : blocks.rows.filter (·.timestamp = cb.timestamp) = [cb]) :
    copies flows blocks others f = fanOut flows blocks others cb.timestamp := by
  rw [copies, own, List.map_singleton, List.sum_singleton, alone, List.length_singleton, Nat.one_mul]

/-- Blocks of one number have one timestamp. -/
def OneTimestamp : Prop :=
  ∀ cb ∈ blocks.rows, ∀ cb' ∈ blocks.rows, cb.blockNumber = cb'.blockNumber → cb.timestamp = cb'.timestamp

section Shares
variable (measure : StakingLinkFlowRow → Int) (flowTypes others : List String) (date : Int)

/-- What a flow on one block adds at another. -/
def share (f : StakingLinkFlowRow) (cb c : CanonicalBlock) : Int :=
  if f.flowType ∈ flowTypes ∧ cb.timestamp = c.timestamp ∧ onDate date c = true then
    fanOut flows blocks others c.timestamp • measure f
  else 0

theorem sum_share_block (c : CanonicalBlock) :
    ((innerJoin onFlowBlock flows blocks.rows).map fun pair =>
      share flows blocks measure flowTypes others date pair.1 pair.2 c).sum =
    if onDate date c then fanOut flows blocks others c.timestamp •
      ((atTime flows blocks flowTypes c.timestamp).map fun pair => measure pair.1).sum else 0 := by
  by_cases here : onDate date c = true
  · rw [if_pos here, atTime, flowsOfType, List.filter_filter, List.smul_sum, List.map_map, sum_where]
    apply congrArg List.sum
    apply List.map_congr_left
    intro pair _
    simp [share, here, and_comm]
  · simp [share, here]

theorem sum_share_flow (f : StakingLinkFlowRow) (cb : CanonicalBlock) :
    (blocks.rows.map fun c => share flows blocks measure flowTypes others date f cb c).sum =
    if f.flowType ∈ flowTypes ∧ onDate date cb = true then
      ((blocks.rows.filter (·.timestamp = cb.timestamp)).length *
        fanOut flows blocks others cb.timestamp) • measure f else 0 := by
  have each (c : CanonicalBlock) : share flows blocks measure flowTypes others date f cb c =
      if decide (c.timestamp = cb.timestamp) = true then
        if f.flowType ∈ flowTypes ∧ onDate date cb = true then
          fanOut flows blocks others cb.timestamp • measure f else 0
      else 0 := by
    by_cases same : c.timestamp = cb.timestamp
    · simp [share, onDate, same]
    · have other : cb.timestamp ≠ c.timestamp := Ne.symm same
      simp [share, same, other]
  simp only [each]
  rw [← sum_where, List.map_const', List.sum_replicate]
  split_ifs
  · rw [smul_smul]
  · rw [smul_zero]

/-- Each flow of the date is counted with its copies. -/
theorem sum_with_copies (oneTimestamp : OneTimestamp blocks) :
    ((blocks.rows.filter (onDate date)).map fun c => fanOut flows blocks others c.timestamp •
      ((atTime flows blocks flowTypes c.timestamp).map fun pair => measure pair.1).sum).sum =
    ((flows.filter fun f => f.flowType ∈ flowTypes && flowOnDate blocks date f).map fun f =>
      copies flows blocks others f • measure f).sum := by
  have dated (f : StakingLinkFlowRow) (cb : CanonicalBlock)
      (matched : cb ∈ blocks.rows.filter (onFlowBlock f)) : onDate date cb = flowOnDate blocks date f := by
    obtain ⟨member, own⟩ := List.mem_filter.mp matched
    rw [Bool.eq_iff_iff, flowOnDate, List.any_eq_true]
    constructor
    · intro here
      exact ⟨cb, member, by rw [own, here]; rfl⟩
    · rintro ⟨cb', member', both⟩
      obtain ⟨own', here⟩ := Bool.and_eq_true_iff.mp both
      have number : cb.blockNumber = cb'.blockNumber :=
        (of_decide_eq_true own).trans (of_decide_eq_true own').symm
      rwa [onDate, oneTimestamp cb member cb' member' number]
  rw [sum_where]
  simp only [← sum_share_block flows blocks measure flowTypes others date]
  rw [sum_swap, sum_innerJoin onFlowBlock fun f cb =>
    (blocks.rows.map fun c => share flows blocks measure flowTypes others date f cb c).sum, sum_where]
  apply congrArg List.sum
  apply List.map_congr_left
  intro f _
  have blockwise : ((blocks.rows.filter (onFlowBlock f)).map fun cb =>
      (blocks.rows.map fun c => share flows blocks measure flowTypes others date f cb c).sum) =
      (blocks.rows.filter (onFlowBlock f)).map fun cb =>
        if f.flowType ∈ flowTypes ∧ flowOnDate blocks date f = true then
          ((blocks.rows.filter (·.timestamp = cb.timestamp)).length *
            fanOut flows blocks others cb.timestamp) • measure f else 0 := by
    apply List.map_congr_left
    intro cb matched
    rw [sum_share_flow, dated f cb matched]
  rw [blockwise]
  by_cases chosen : f.flowType ∈ flowTypes ∧ flowOnDate blocks date f = true
  · simp only [if_pos chosen]
    rw [if_pos (by simpa using chosen), copies, List.sum_smul, List.map_map]
    rfl
  · simp only [if_neg chosen]
    rw [if_neg (by simpa using chosen)]
    simp

end Shares

/-! ## The row of a date -/

theorem apyRealizedByPool_date (date : Int) (someBlock : ∃ cb ∈ blocks.rows, onDate date cb = true) :
    (apyRealizedByPool flows blocks).filter (·.snapshotDate = date) =
      [apyRow date ((apyJoin flows blocks).filter (apyDay · = date))] := by
  have nonempty : (apyJoin flows blocks).filter (apyDay · = date) ≠ [] := by
    obtain ⟨cb, member, here⟩ := someBlock
    rw [apyJoin_date]
    obtain ⟨row, left, -⟩ := exists_mem_leftJoin onStakeTime (stakeChanges flows blocks)
      (List.mem_filter.mpr ⟨member, here⟩)
    obtain ⟨row', joined, -⟩ := exists_mem_leftJoin onRewardTime (claimedRewards flows blocks) left
    exact List.ne_nil_of_mem joined
  have grouped := filter_groupRows apyDay apyRow ApyRow.snapshotDate (fun _ _ => rfl)
    (apyJoin flows blocks) date
  rw [if_neg nonempty] at grouped
  have sorted := (List.perm_insertionSort (fun r r' : ApyRow => r'.snapshotDate ≤ r.snapshotDate)
    (groupRows apyDay apyRow (apyJoin flows blocks))).filter (·.snapshotDate = date)
  rw [grouped] at sorted
  exact List.perm_singleton.mp sorted

section Sums
variable (measure : StakingLinkFlowRow → Int) (flowTypes others : List String) (date : Int)

def plainSum : Int :=
  ((flows.filter fun f => f.flowType ∈ flowTypes && flowOnDate blocks date f).map measure).sum

/-- What the copies beyond the first add. -/
def surplus : Int :=
  ((flows.filter fun f => f.flowType ∈ flowTypes && flowOnDate blocks date f).map fun f =>
    ((copies flows blocks others f : Int) - 1) * measure f).sum

theorem copies_eq_plain_add_surplus :
    ((flows.filter fun f => f.flowType ∈ flowTypes && flowOnDate blocks date f).map fun f =>
      copies flows blocks others f • measure f).sum =
    plainSum flows blocks measure flowTypes date + surplus flows blocks measure flowTypes others date := by
  rw [plainSum, surplus, ← List.sum_map_add]
  apply congrArg List.sum
  apply List.map_congr_left
  intro f _
  rw [nsmul_eq_mul]
  ring

end Sums

theorem apy_sums_iff (oneTimestamp : OneTimestamp blocks) (date : Int)
    (someBlock : ∃ cb ∈ blocks.rows, onDate date cb = true) :
    ∃ row, (apyRealizedByPool flows blocks).filter (·.snapshotDate = date) = [row] ∧
      (row.netPrincipalDelta =
          plainSum flows blocks principalDelta ["stake", "unstake_finalized"] date ∧
        row.rewardsDistributed =
          plainSum flows blocks StakingLinkFlowRow.amountLink ["reward_claimed"] date ↔
      surplus flows blocks principalDelta ["stake", "unstake_finalized"] ["reward_claimed"] date = 0 ∧
        surplus flows blocks StakingLinkFlowRow.amountLink ["reward_claimed"]
          ["stake", "unstake_finalized"] date = 0) := by
  refine ⟨_, apyRealizedByPool_date flows blocks date someBlock, ?_⟩
  rw [net_by_block, rewards_by_block,
    sum_with_copies flows blocks principalDelta _ _ date oneTimestamp,
    sum_with_copies flows blocks StakingLinkFlowRow.amountLink _ _ date oneTimestamp,
    copies_eq_plain_add_surplus, copies_eq_plain_add_surplus, add_eq_left, add_eq_left]

/-! ### Two stakes and two claims in a block -/

def claimRow (eventId : String) (blockNumber amount : Int) : StakingLinkFlowRow :=
  { stakeRow eventId blockNumber amount with flowType := "reward_claimed" }

theorem oneDay_timestamps : OneTimestamp oneDay := by
  unfold OneTimestamp
  decide +kernel

theorem apy_sums_single : ∃ row,
    (apyRealizedByPool [stakeRow "a" 10 5, claimRow "b" 10 2] oneDay).filter (·.snapshotDate = 0) =
      [row] ∧
    row.netPrincipalDelta = plainSum [stakeRow "a" 10 5, claimRow "b" 10 2] oneDay principalDelta
      ["stake", "unstake_finalized"] 0 ∧
    row.rewardsDistributed = plainSum [stakeRow "a" 10 5, claimRow "b" 10 2] oneDay
      StakingLinkFlowRow.amountLink ["reward_claimed"] 0 := by
  obtain ⟨row, only, agree⟩ := apy_sums_iff [stakeRow "a" 10 5, claimRow "b" 10 2] oneDay
    oneDay_timestamps 0 (by decide +kernel)
  exact ⟨row, only, agree.mpr ⟨by decide +kernel, by decide +kernel⟩⟩

/-- Stakes of 5 and 7 count twice, and so do claims of 2 and 3. -/
theorem stakes_and_claims_doubled : OneTimestamp oneDay ∧
    (apyRealizedByPool [stakeRow "a" 10 5, stakeRow "b" 10 7, claimRow "c" 10 2, claimRow "d" 10 3]
      oneDay).map (fun row => (row.snapshotDate, row.netPrincipalDelta, row.rewardsDistributed)) =
        [(0, 24, 10)] ∧
    plainSum [stakeRow "a" 10 5, stakeRow "b" 10 7, claimRow "c" 10 2, claimRow "d" 10 3] oneDay
      principalDelta ["stake", "unstake_finalized"] 0 = 12 ∧
    plainSum [stakeRow "a" 10 5, stakeRow "b" 10 7, claimRow "c" 10 2, claimRow "d" 10 3] oneDay
      StakingLinkFlowRow.amountLink ["reward_claimed"] 0 = 5 :=
  ⟨oneDay_timestamps, by decide +kernel⟩

end EconomicLedger.Marts
