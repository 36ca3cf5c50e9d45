import EconomicLedger.Lib.Transfers
import EconomicLedger.Movements.PoolBalance
import Mathlib.Data.Finset.Dedup

/-!
# Balance deltas as an algebra

A delta is the effect of the movements in its range on one account, so it adds up over lists and over
adjacent ranges, and replaying these movements changes each balance by it.
-/

namespace EconomicLedger.Movements
open Model Text Relational Transfers

/-! ## Lists and ranges -/

theorem within_append (movements movements' : List TokenMovement) (fromBlock toBlock : Int) :
    within fromBlock toBlock (movements ++ movements') =
      within fromBlock toBlock movements ++ within fromBlock toBlock movements' :=
  List.filter_append movements movements'

theorem delta_append (movements movements' : List TokenMovement) (address : String) (fromBlock toBlock : Int) :
    computeBalanceDelta (movements ++ movements') address fromBlock toBlock =
      computeBalanceDelta movements address fromBlock toBlock +
        computeBalanceDelta movements' address fromBlock toBlock := by
  simp only [computeBalanceDelta_within]
  rw [within_append, netAt_append]

theorem delta_perm {movements movements' : List TokenMovement} (reordered : movements.Perm movements')
    (address : String) (fromBlock toBlock : Int) :
    computeBalanceDelta movements address fromBlock toBlock =
      computeBalanceDelta movements' address fromBlock toBlock := by
  simp only [computeBalanceDelta_within]
  exact netAt_perm address (reordered.filter _)

theorem delta_adjacent (movements : List TokenMovement) (address : String) {x y z : Int}
    (nonempty : x - 1 ≤ y) (ordered : y ≤ z) :
    computeBalanceDelta movements address x z =
      computeBalanceDelta movements address x y + computeBalanceDelta movements address (y + 1) z := by
  have first : (within x z movements).filter (fun m => m.blockNumber ≤ y) = within x y movements :=
    filter_where movements fun m => by omega
  have second : (within x z movements).filter (fun m => !decide (m.blockNumber ≤ y)) =
      within (y + 1) z movements :=
    filter_where_not movements fun m => by omega
  simp only [computeBalanceDelta_within]
  rw [netAt_filter_add address (fun m => m.blockNumber ≤ y), first, second]

theorem delta_letterCase (movements : List TokenMovement) {address address' : String}
    (same : lower address = lower address') (fromBlock toBlock : Int) :
    computeBalanceDelta movements address fromBlock toBlock =
      computeBalanceDelta movements address' fromBlock toBlock := by
  rw [computeBalanceDelta, computeBalanceDelta, same]

theorem delta_self (m : TokenMovement) (self : lower m.fromAddr = lower m.toAddr) (address : String)
    (fromBlock toBlock : Int) : computeBalanceDelta [m] address fromBlock toBlock = 0 := by
  have nothing : (transferOf m).effect (lower address) = 0 := by
    unfold Transfer.effect transferOf
    rw [self]
    exact sub_self _
  rw [computeBalanceDelta_eq, List.map_singleton, List.sum_singleton, Transfer.effectIn, nothing, ite_self]

/-! ## Replayed balances -/

def moveOf (m : TokenMovement) : Move String Int :=
  { source := m.fromAddr
    target := m.toAddr
    amount := m.amount }

def LowerParties (movements : List TokenMovement) : Prop :=
  ∀ m ∈ movements, lower m.fromAddr = m.fromAddr ∧ lower m.toAddr = m.toAddr

def parties (movements : List TokenMovement) : Finset String :=
  (movements.flatMap fun m => [m.fromAddr, m.toAddr]).toFinset

theorem LowerParties.within {movements : List TokenMovement} (lowered : LowerParties movements)
    (fromBlock toBlock : Int) : LowerParties (within fromBlock toBlock movements) :=
  fun m member => lowered m (List.mem_of_mem_filter member)

theorem effects_eq_netAt {movements : List TokenMovement} (lowered : LowerParties movements)
    (address : String) : effects (movements.map moveOf) (lower address) = netAt address movements := by
  induction movements with
  | nil => rfl
  | cons m rest ih =>
      obtain ⟨⟨source, target⟩, later⟩ := List.forall_mem_cons.mp lowered
      have first : effects ((m :: rest).map moveOf) = (moveOf m).effect + effects (rest.map moveOf) :=
        List.sum_cons
      have effect : (moveOf m).effect (lower address) = (transferOf m).effect (lower address) := by
        simp only [Move.effect, moveOf, Transfer.effect, transferOf, Pi.sub_apply, Pi.single_apply, source,
          target, eq_comm]
      rw [first, Pi.add_apply, effect, ih later, netAt, netAt, List.map_cons, List.sum_cons]

theorem delta_eq_effects {movements : List TokenMovement} (lowered : LowerParties movements)
    (address : String) (fromBlock toBlock : Int) :
    computeBalanceDelta movements address fromBlock toBlock =
      effects ((within fromBlock toBlock movements).map moveOf) (lower address) := by
  rw [computeBalanceDelta_within, effects_eq_netAt (lowered.within fromBlock toBlock)]

theorem delta_eq_replay {movements : List TokenMovement} (lowered : LowerParties movements)
    (address : String) (fromBlock toBlock : Int) (balances : String → Int) :
    computeBalanceDelta movements address fromBlock toBlock =
      replay balances ((within fromBlock toBlock movements).map moveOf) (lower address) -
        balances (lower address) := by
  rw [delta_eq_effects lowered, replay_eq, Pi.add_apply, add_sub_cancel_left]

theorem sum_delta {movements : List TokenMovement} (lowered : LowerParties movements)
    (fromBlock toBlock : Int) :
    ∑ address ∈ parties movements, computeBalanceDelta movements address fromBlock toBlock = 0 := by
  have each (address : String) (member : address ∈ parties movements) :
      computeBalanceDelta movements address fromBlock toBlock =
        effects ((within fromBlock toBlock movements).map moveOf) address := by
    obtain ⟨m, inside, isParty⟩ := List.mem_flatMap.mp (List.mem_toFinset.mp member)
    have own : lower address = address := by
      rcases List.mem_cons.mp isParty with rfl | later
      · exact (lowered m inside).1
      · rw [List.mem_singleton.mp later]
        exact (lowered m inside).2
    rw [delta_eq_effects lowered, own]
  rw [Finset.sum_congr rfl each]
  apply sum_effects
  intro move member
  obtain ⟨m, inside, rfl⟩ := List.mem_map.mp member
  have isParty (address : String) (here : address ∈ [m.fromAddr, m.toAddr]) : address ∈ parties movements :=
    List.mem_toFinset.mpr (List.mem_flatMap.mpr ⟨m, List.mem_of_mem_filter inside, here⟩)
  exact ⟨isParty _ List.mem_cons_self, isParty _ (List.mem_cons_of_mem _ List.mem_cons_self)⟩

/-! ## The algebra -/

theorem balance_delta_algebra (movements movements' : List TokenMovement) (address : String) :
    (∀ fromBlock toBlock, computeBalanceDelta (movements ++ movements') address fromBlock toBlock =
      computeBalanceDelta movements address fromBlock toBlock +
        computeBalanceDelta movements' address fromBlock toBlock) ∧
    (∀ x y z, x - 1 ≤ y → y ≤ z → computeBalanceDelta movements address x z =
      computeBalanceDelta movements address x y + computeBalanceDelta movements address (y + 1) z) ∧
    (movements.Perm movements' → ∀ fromBlock toBlock,
      computeBalanceDelta movements address fromBlock toBlock =
        computeBalanceDelta movements' address fromBlock toBlock) ∧
    (∀ address', lower address' = lower address → ∀ fromBlock toBlock,
      computeBalanceDelta movements address' fromBlock toBlock =
        computeBalanceDelta movements address fromBlock toBlock) ∧
    (∀ m : TokenMovement, lower m.fromAddr = lower m.toAddr → ∀ fromBlock toBlock,
      computeBalanceDelta [m] address fromBlock toBlock = 0) ∧
    (LowerParties movements → ∀ fromBlock toBlock,
      (∑ party ∈ parties movements, computeBalanceDelta movements party fromBlock toBlock = 0) ∧
      ∀ balances : String → Int, computeBalanceDelta movements address fromBlock toBlock =
        replay balances ((within fromBlock toBlock movements).map moveOf) (lower address) -
          balances (lower address)) :=
  ⟨delta_append movements movements' address,
    fun _ _ _ nonempty ordered => delta_adjacent movements address nonempty ordered,
    fun reordered => delta_perm reordered address,
    fun _ same => delta_letterCase movements same,
    fun m self => delta_self m self address,
    fun lowered fromBlock toBlock => ⟨sum_delta lowered fromBlock toBlock,
      fun balances => delta_eq_replay lowered address fromBlock toBlock balances⟩⟩

theorem balance_delta_algebra_twoTokens :
    computeBalanceDelta twoTokens "0xB0" 100 200 =
        computeBalanceDelta twoTokens "0xB0" 100 150 + computeBalanceDelta twoTokens "0xB0" 151 200 ∧
      computeBalanceDelta twoTokens "0xB0" 100 200 = computeBalanceDelta twoTokens.reverse "0xB0" 100 200 ∧
      computeBalanceDelta twoTokens "0xb0" 100 200 = computeBalanceDelta twoTokens "0xB0" 100 200 ∧
      computeBalanceDelta [{ depositOf "0xc1" 5 with toAddr := "0xAA" }] "0xB0" 100 200 = 0 ∧
      computeBalanceDelta twoTokens "0xB0" 100 200 =
        replay (fun _ => 3) ((within 100 200 twoTokens).map moveOf) (lower "0xB0") - 3 := by
  have lowered : LowerParties twoTokens := by
    unfold LowerParties
    decide +kernel
  obtain ⟨-, adjacent, reordered, letterCase, self, balances⟩ :=
    balance_delta_algebra twoTokens twoTokens.reverse "0xB0"
  exact ⟨adjacent 100 150 200 (by decide) (by decide),
    reordered (List.reverse_perm twoTokens).symm 100 200,
    letterCase "0xb0" (by decide +kernel) 100 200,
    self _ (by decide +kernel) 100 200,
    (balances lowered 100 200).2 fun _ => 3⟩

end EconomicLedger.Movements
