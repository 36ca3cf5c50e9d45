import EconomicLedger.Lib.Relational
import EconomicLedger.Model.BalanceReconciler
import EconomicLedger.Movements.Flows

/-!
# The pool balance check

The balance of a token at a pool changes by the token's movements in the range, while the check nets
the movements of every token it is given.
-/

namespace EconomicLedger.Movements
open Model Text Relational

/-! ## Balances on the chain -/

def ofToken (token : String) (movements : List TokenMovement) : List TokenMovement :=
  movements.filter fun m => lower m.tokenAddress = lower token

def ofOtherTokens (token : String) (movements : List TokenMovement) : List TokenMovement :=
  movements.filter fun m => !decide (lower m.tokenAddress = lower token)

def netAt (holder : String) (movements : List TokenMovement) : Int :=
  (movements.map fun m => (transferOf m).effect (lower holder)).sum

def upTo (block : Int) (movements : List TokenMovement) : List TokenMovement :=
  movements.filter (·.blockNumber ≤ block)

def within (fromBlock toBlock : Int) (movements : List TokenMovement) : List TokenMovement :=
  movements.filter fun m => fromBlock ≤ m.blockNumber ∧ m.blockNumber ≤ toBlock

/-- A balance is the initial one and the net of the token's movements so far. -/
structure OnChain (client : BalanceProvider) (initial : String → String → Int)
    (movements : List TokenMovement) : Prop where
  balance : ∀ token holder block, client token holder block =
    initial token holder + netAt holder (upTo block (ofToken token movements))

theorem netAt_perm (holder : String) {movements movements' : List TokenMovement}
    (reordered : movements.Perm movements') : netAt holder movements = netAt holder movements' :=
  (reordered.map _).sum_eq

theorem netAt_append (holder : String) (movements movements' : List TokenMovement) :
    netAt holder (movements ++ movements') = netAt holder movements + netAt holder movements' := by
  rw [netAt, List.map_append, List.sum_append]
  rfl

theorem netAt_filter_add (holder : String) (p : TokenMovement → Bool) (movements : List TokenMovement) :
    netAt holder movements =
      netAt holder (movements.filter p) + netAt holder (movements.filter fun m => !p m) := by
  rw [← netAt_append]
  exact netAt_perm holder (List.filter_append_perm p movements).symm

theorem netAt_lower (holder : String) (movements : List TokenMovement) :
    netAt (lower holder) movements = netAt holder movements := by
  rw [netAt, lower_lower]
  rfl

/-! ## The range -/

theorem computeBalanceDelta_within (movements : List TokenMovement) (address : String)
    (fromBlock toBlock : Int) :
    computeBalanceDelta movements address fromBlock toBlock =
      netAt address (within fromBlock toBlock movements) := by
  rw [computeBalanceDelta_eq, netAt, within, sum_where]
  apply congrArg List.sum
  apply List.map_congr_left
  intro m _
  have block : (transferOf m).blockNumber = m.blockNumber := rfl
  rw [Transfer.effectIn, block]
  by_cases inside : fromBlock ≤ m.blockNumber ∧ m.blockNumber ≤ toBlock
  · rw [if_neg (by omega), if_pos (decide_eq_true inside)]
  · rw [if_pos (by omega), if_neg (by simpa using inside)]

theorem upTo_within (movements : List TokenMovement) (holder : String) {fromBlock toBlock : Int}
    (ordered : fromBlock ≤ toBlock + 1) :
    netAt holder (upTo toBlock movements) =
      netAt holder (upTo (fromBlock - 1) movements) + netAt holder (within fromBlock toBlock movements) := by
  have before : (upTo toBlock movements).filter (fun m => m.blockNumber ≤ fromBlock - 1) =
      upTo (fromBlock - 1) movements :=
    filter_where movements fun m => by omega
  have rest : (upTo toBlock movements).filter (fun m => !decide (m.blockNumber ≤ fromBlock - 1)) =
      within fromBlock toBlock movements :=
    filter_where_not movements fun m => by omega
  rw [netAt_filter_add holder (fun m => m.blockNumber ≤ fromBlock - 1), before, rest]

theorem OnChain.observed {client : BalanceProvider} {initial : String → String → Int}
    {movements : List TokenMovement} (chain : OnChain client initial movements) (token holder : String)
    (fromBlock toBlock : Int) (ordered : fromBlock ≤ toBlock + 1) :
    client token holder toBlock - client token holder (fromBlock - 1) =
      netAt holder (within fromBlock toBlock (ofToken token movements)) := by
  rw [chain.balance, chain.balance, upTo_within _ holder ordered]
  ring

theorem netAt_within_tokens (token holder : String) (fromBlock toBlock : Int)
    (movements : List TokenMovement) :
    netAt holder (within fromBlock toBlock movements) =
      netAt holder (within fromBlock toBlock (ofToken token movements)) +
        netAt holder (within fromBlock toBlock (ofOtherTokens token movements)) := by
  rw [netAt_filter_add holder (fun m => lower m.tokenAddress = lower token), within, within, within,
    ofToken, ofOtherTokens, List.filter_filter, List.filter_filter, List.filter_filter, List.filter_filter]
  simp only [Bool.and_comm]

/-! ## The check -/

/-- The check is sound exactly where the other tokens net to nothing at the pool. -/
theorem pool_reconciliation_sound_iff (client : BalanceProvider) (initial : String → String → Int)
    (movements : List TokenMovement) (chain : OnChain client initial movements)
    (token pool : String) (fromBlock toBlock : Int) (ordered : fromBlock ≤ toBlock + 1) :
    ((reconcilePoolMovementVsBalance client token pool movements fromBlock toBlock).diff = 0 ∧
        (reconcilePoolMovementVsBalance client token pool movements fromBlock toBlock).isConsistent = true) ↔
      netAt pool (within fromBlock toBlock (ofOtherTokens token movements)) = 0 := by
  have diff : (reconcilePoolMovementVsBalance client token pool movements fromBlock toBlock).diff =
      -netAt pool (within fromBlock toBlock (ofOtherTokens token movements)) := by
    have observed := chain.observed token (lower pool) fromBlock toBlock ordered
    rw [netAt_lower] at observed
    have tokens := netAt_within_tokens token pool fromBlock toBlock movements
    change client token (lower pool) toBlock - client token (lower pool) (fromBlock - 1) -
      computeBalanceDelta movements (lower pool) fromBlock toBlock = _
    rw [observed, computeBalanceDelta_within, netAt_lower, tokens]
    ring
  have consistent :
      (reconcilePoolMovementVsBalance client token pool movements fromBlock toBlock).isConsistent = true ↔
        (reconcilePoolMovementVsBalance client token pool movements fromBlock toBlock).diff = 0 :=
    decide_eq_true_iff
  rw [consistent, and_self, diff, neg_eq_zero]

theorem verifyPoolBalance_consistent_iff (client : BalanceProvider) (initial : String → String → Int)
    (movements : List TokenMovement) (chain : OnChain client initial movements)
    (token pool : String) (priorBlock block expected : Int) (ordered : priorBlock ≤ block) :
    (verifyPoolBalance client token pool block expected priorBlock).isConsistent = true ↔
      expected = netAt pool (within (priorBlock + 1) block (ofToken token movements)) := by
  have observed := chain.observed token pool (priorBlock + 1) block (by omega)
  rw [add_sub_cancel_right] at observed
  have consistent : (verifyPoolBalance client token pool block expected priorBlock).isConsistent = true ↔
      client token pool block - client token pool priorBlock - expected = 0 := decide_eq_true_iff
  rw [consistent, observed, sub_eq_zero, eq_comm]

/-! ## Two tokens -/

def onChainBalance (movements : List TokenMovement) : BalanceProvider :=
  fun token holder block => netAt holder (upTo block (ofToken token movements))

theorem onChain_onChainBalance (movements : List TokenMovement) :
    OnChain (onChainBalance movements) (fun _ _ => 0) movements :=
  ⟨fun _ _ _ => (zero_add _).symm⟩

def depositOf (token : String) (amount : Int) : TokenMovement :=
  { movementId := token
    chainId := 1
    blockNumber := 100
    txHash := "0x01"
    tokenAddress := token
    fromAddr := "0xaa"
    toAddr := "0xb0"
    amount := amount
    evidenceIds := []
    sourcePriority := .log
    isCanonical := true }

def twoTokens : List TokenMovement := [depositOf "0xc1" 5, depositOf "0xc2" 7]

theorem pool_reconciliation_sound_twoTokens :
    (reconcilePoolMovementVsBalance (onChainBalance twoTokens) "0xC1" "0xb1" twoTokens 100 200).diff = 0 := by
  have others : netAt "0xb1" (within 100 200 (ofOtherTokens "0xC1" twoTokens)) = 0 := by
    decide +kernel
  exact ((pool_reconciliation_sound_iff _ _ twoTokens (onChain_onChainBalance twoTokens) "0xC1" "0xb1"
    100 200 (by decide)).mpr others).1

/-- The second token is booked against the balance of the first. -/
theorem second_token_leaks : OnChain (onChainBalance twoTokens) (fun _ _ => 0) twoTokens ∧
    (reconcilePoolMovementVsBalance (onChainBalance twoTokens) "0xc1" "0xb0" twoTokens 100 200).diff = -7 ∧
    (reconcilePoolMovementVsBalance (onChainBalance twoTokens) "0xc1" "0xb0" twoTokens 100 200).isConsistent =
      false :=
  ⟨onChain_onChainBalance twoTokens, by decide +kernel, by decide +kernel⟩

end EconomicLedger.Movements
