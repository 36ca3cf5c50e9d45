import EconomicLedger.Ledger.Accounts
import EconomicLedger.Marts.FlowRows
import EconomicLedger.Marts.Increments

/-!
# The wallet rollup and the ledger

The net flow of a wallet over all its days is what the ledger adds to the account of the wallet.
-/

namespace EconomicLedger.Marts
open Model Ledger Relational Rollup

/-! ## From the rollup to the flows -/

def flowsOf (w : String) (flows : List StakingLinkFlowRow) : List StakingLinkFlowRow :=
  flows.filter (·.wallet = w)

theorem netFlow_total (w : String) (flows : List StakingLinkFlowRow) (blocks : CanonicalBlocks)
    (single : ∀ f ∈ flows, (blocks.rows.filter (onFlowBlock f)).length ≤ 1)
    (canonical : ∀ f ∈ flows, blocks.rows.any (onFlowBlock f) = true) :
    (((walletEconomics flows blocks).filter (·.wallet = w)).map WalletEconomicsRow.netFlow).sum =
      ((flowsOf w flows).map signedFlow).sum := by
  have grouped := sum_groupRows walletDay walletEconomicsRow walletKey (fun _ _ => rfl)
    (fun pair => signedFlow pair.1) WalletEconomicsRow.netFlow (fun _ _ => rfl)
    (innerJoin onFlowBlock flows blocks.rows) (fun key => decide (key.1 = w))
  have kept : (innerJoin onFlowBlock flows blocks.rows).map Prod.fst = flows := by
    rw [innerJoin_left onFlowBlock single]
    exact List.filter_eq_self.mpr canonical
  calc (((walletEconomics flows blocks).filter (·.wallet = w)).map WalletEconomicsRow.netFlow).sum
      = (((innerJoin onFlowBlock flows blocks.rows).filter fun pair => pair.1.wallet = w).map
          fun pair => signedFlow pair.1).sum := grouped
    _ = (((flowsOf w ((innerJoin onFlowBlock flows blocks.rows).map Prod.fst))).map signedFlow).sum := by
        rw [flowsOf, List.filter_map, List.map_map]
        rfl
    _ = _ := by rw [kept]

/-! ## From the flows to the actions -/

/-- What an action row brings to a wallet. -/
def rowAmount (w : String) (a : EconomicActionRow) : Int :=
  if a.action.wallet = some w then walletAmount a.action.kind a.action.amountLink else 0

theorem signedFlow_kind (kind : ActionKind) (f : StakingLinkFlowRow) (own : f.flowType = kind.value) :
    signedFlow f = walletAmount kind f.amountLink := by
  cases kind <;> simp [signedFlow, walletAmount, own, ActionKind.value]

theorem sum_flowRow (w : String)
    (joined : List ((EconomicActionRow × CanonicalBlock) × Option ActionMovementReconRow)) :
    ((flowsOf w (joined.filterMap flowRow)).map signedFlow).sum =
      (((joined.map Prod.fst).map Prod.fst).map (rowAmount w)).sum := by
  induction joined with
  | nil => rfl
  | cons j rest ih =>
      obtain ⟨⟨a, cb⟩, recon⟩ := j
      rw [List.map_cons, List.map_cons, List.map_cons, List.sum_cons, ← ih]
      cases wallet : a.action.wallet with
      | none =>
          have absent : flowRow ((a, cb), recon) = none := by simp [flowRow, wallet]
          rw [List.filterMap_cons_none absent]
          simp [rowAmount, wallet]
      | some v =>
          obtain ⟨f, made, own, flowType, amount⟩ : ∃ f, flowRow ((a, cb), recon) = some f ∧
              f.wallet = v ∧ f.flowType = a.action.kind.value ∧ f.amountLink = a.action.amountLink :=
            ⟨_, by rw [flowRow]; simp only [wallet]; rfl, rfl, rfl, rfl⟩
          rw [List.filterMap_cons_some made, flowsOf, List.filter_cons, own]
          by_cases mine : v = w
          · simp [mine, rowAmount, wallet, signedFlow_kind _ f flowType, amount, flowsOf]
          · simp [mine, rowAmount, wallet, flowsOf]

/-! ## Agreement -/

theorem onFlowBlock_single (blocks : CanonicalBlocks) (chainId : Int)
    (oneChain : ∀ cb ∈ blocks.rows, cb.chainId = chainId) (f : StakingLinkFlowRow) :
    (blocks.rows.filter (onFlowBlock f)).length ≤ 1 := by
  have sameChain : blocks.rows.filter (onFlowBlock f) =
      blocks.rows.filter fun cb => decide (cb.height = (chainId, f.blockNumber)) := by
    apply List.filter_congr
    intro cb member
    simp [onFlowBlock, CanonicalBlock.height, oneChain cb member]
  rw [sameChain]
  exact filter_length_le_one CanonicalBlock.height blocks.unique _ (chainId, f.blockNumber)
    fun cb here => by simpa using here

theorem flow_on_block (economicActions : List EconomicActionRow) (blocks : CanonicalBlocks)
    (recon : List ActionMovementReconRow) (f : StakingLinkFlowRow)
    (member : f ∈ stakingLinkFlows economicActions blocks recon) :
    blocks.rows.any (onFlowBlock f) = true := by
  obtain ⟨⟨⟨a, cb⟩, found⟩, joined, made⟩ := List.mem_filterMap.mp member
  have paired := ((mem_leftJoin onTxHash).mp joined).1
  obtain ⟨-, isBlock, matched⟩ := (mem_innerJoin onCanonicalBlock).mp paired
  obtain ⟨wallet, -, rfl⟩ := Option.map_eq_some_iff.mp made
  refine List.any_eq_true.mpr ⟨cb, isBlock, ?_⟩
  simp only [onCanonicalBlock, Bool.and_eq_true] at matched
  exact matched.2

theorem flows_total (w : String) (economicActions : List EconomicActionRow) (blocks : CanonicalBlocks)
    (recon : List ActionMovementReconRow)
    (canonical : ∀ a ∈ economicActions,
      onBlocks blocks a.action.chainId a.action.blockNumber = true)
    (atMostOne : ∀ a ∈ economicActions, (recon.filter (·.txHash = a.action.txHash)).length ≤ 1) :
    ((flowsOf w (stakingLinkFlows economicActions blocks recon)).map signedFlow).sum =
      ((economicActions.map lowered).map (rowAmount w)).sum := by
  let pairs := innerJoin onCanonicalBlock (intEconomicActions economicActions blocks) blocks.rows
  have all : intEconomicActions economicActions blocks = economicActions.map lowered := by
    rw [intEconomicActions_eq, List.filter_eq_self.mpr canonical]
  have reconKept : (leftJoin onTxHash pairs recon).map Prod.fst = pairs := by
    apply leftJoin_left
    intro pair member
    have inside := ((mem_innerJoin onCanonicalBlock).mp member).1
    rw [all] at inside
    obtain ⟨source, isSource, own⟩ := List.mem_map.mp inside
    have sameTx : recon.filter (onTxHash pair) = recon.filter (·.txHash = source.action.txHash) := by
      apply List.filter_congr
      intro r _
      simp [onTxHash, ← own, lowered, eq_comm]
    rw [sameTx]
    exact atMostOne source isSource
  have blockKept : pairs.map Prod.fst = economicActions.map lowered := by
    rw [innerJoin_left onCanonicalBlock fun a _ => onCanonicalBlock_single blocks a, all]
    apply List.filter_eq_self.mpr
    intro a member
    obtain ⟨source, isSource, rfl⟩ := List.mem_map.mp member
    exact canonical source isSource
  rw [stakingLinkFlows, sum_flowRow, reconKept, blockKept]

theorem wallet_rollup_agrees (sha256 : Digest) (movements : EconomicAction → List TokenMovement)
    (economicActions : List EconomicActionRow) (blocks : CanonicalBlocks)
    (recon : List ActionMovementReconRow) (chainId : Int)
    (oneChain : ∀ cb ∈ blocks.rows, cb.chainId = chainId)
    (canonical : ∀ a ∈ economicActions,
      onBlocks blocks a.action.chainId a.action.blockNumber = true)
    (atMostOne : ∀ a ∈ economicActions, (recon.filter (·.txHash = a.action.txHash)).length ≤ 1)
    (lowerCase : ∀ a ∈ economicActions, a.action.wallet.map Text.lower = a.action.wallet)
    (poolRoles : ∀ a ∈ economicActions, PoolRole a.action.poolRole)
    (w : String) (nonempty : w ≠ "") (known : w ≠ "unknown") :
    (((walletEconomics (stakingLinkFlows economicActions blocks recon) blocks).filter
        (·.wallet = w)).map WalletEconomicsRow.netFlow).sum =
      accountNet ("wallet:" ++ w)
        (ledgerEntries sha256 movements (economicActions.map EconomicActionRow.action)) := by
  have effects : (economicActions.map lowered).map (rowAmount w) =
      (economicActions.map EconomicActionRow.action).map (accountEffect (walletAccount w)) := by
    rw [List.map_map, List.map_map]
    apply List.map_congr_left
    intro a member
    rw [Function.comp_apply, Function.comp_apply,
      accountEffect_wallet w nonempty known a.action (poolRoles a member)]
    simp only [rowAmount, lowered, lowerCase a member]
  rw [netFlow_total w _ blocks (fun f _ => onFlowBlock_single blocks chainId oneChain f)
      (flow_on_block economicActions blocks recon),
    flows_total w economicActions blocks recon canonical atMostOne, effects,
    ← accountNet_ledgerEntries sha256 (walletAccount w) movements]
  rfl

/-! ### A stake and a claim on one day -/

def walletRow (kind : ActionKind) (poolRole contractAddress : String) (blockNumber amount : Int) :
    EconomicActionRow :=
  { action := { actionId := kind.value
                kind := kind
                chainId := 1
                blockNumber := blockNumber
                txHash := "0x01"
                logIndex := 0
                contractAddress := contractAddress
                poolRole := poolRole
                wallet := some "0xaa"
                amountLink := amount
                sourceEventSignature := ""
                rawLogId := ""
                decodedEventId := kind.value }
    runPartitionId := "run" }

def stakeAndClaim : List EconomicActionRow :=
  [walletRow .stake "community_pool" "0xb0" 10 5, walletRow .rewardClaimed "reward_vault" "0xb1" 100 2]

theorem wallet_rollup_stake_and_claim :
    (((walletEconomics (stakingLinkFlows stakeAndClaim oneDay []) oneDay).filter
        (·.wallet = "0xaa")).map WalletEconomicsRow.netFlow).sum =
      accountNet ("wallet:" ++ "0xaa")
        (ledgerEntries id (fun _ => []) (stakeAndClaim.map EconomicActionRow.action)) :=
  wallet_rollup_agrees id (fun _ => []) stakeAndClaim oneDay [] 1 (by decide) (by decide) (by decide)
    (by decide) (by decide) "0xaa" (by decide) (by decide)

def twoChains : CanonicalBlocks where
  rows := [1, 2].map fun chainId =>
    { chainId := chainId, blockNumber := 10, blockHash := "0x0a", parentHash := "0x09"
      timestamp := 120, runPartitionId := "run" }
  unique := by decide

/-- A pool account under the name of a wallet account, and a height on two chains. -/
theorem wallet_rollup_differs :
    (((walletEconomics (stakingLinkFlows [walletRow .stake "wallet" "0xaa" 10 5] oneDay []) oneDay).filter
        (·.wallet = "0xaa")).map WalletEconomicsRow.netFlow).sum = -5 ∧
    accountNet ("wallet:" ++ "0xaa") (ledgerEntries id (fun _ => [])
        ([walletRow .stake "wallet" "0xaa" 10 5].map EconomicActionRow.action)) = 0 ∧
    (((walletEconomics (stakingLinkFlows [walletRow .stake "community_pool" "0xb0" 10 5] twoChains [])
        twoChains).filter (·.wallet = "0xaa")).map WalletEconomicsRow.netFlow).sum = -10 ∧
    accountNet ("wallet:" ++ "0xaa") (ledgerEntries id (fun _ => [])
        ([walletRow .stake "community_pool" "0xb0" 10 5].map EconomicActionRow.action)) = -5 := by
  decide +kernel

end EconomicLedger.Marts
