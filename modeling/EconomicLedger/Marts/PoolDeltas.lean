import EconomicLedger.Model.Rollups
import EconomicLedger.Movements.Flows

/-!
# Observed and net balance changes of a pool

A row stands between two consecutive snapshots of a pool, and its net amount is that of the block of
the later one.
-/

namespace EconomicLedger.Marts
open Model Movements Relational Rollup Window Text

variable {β : Type}

/-! ## The net amount of a block -/

theorem sum_filter (p : β → Bool) (amount : β → Int) (rows : List β) :
    ((rows.filter p).map amount).sum = sumWhen p amount rows :=
  sum_where p amount rows

theorem sumWhen_map {γ : Type} (p : β → Bool) (amount : β → Int) (make : γ → β) (rows : List γ) :
    sumWhen p amount (rows.map make) = sumWhen (fun c => p (make c)) (fun c => amount (make c)) rows := by
  rw [sumWhen, List.map_map]
  rfl

theorem legs_effect (movements : List TokenMovement) (address : String) (blockNumber : Int) :
    (((movementLegs movements).filter (·.at = (address, blockNumber))).map MovementLeg.netAmount).sum =
      sumWhen (fun m => decide ((m.toAddr, m.blockNumber) = (address, blockNumber)))
          TokenMovement.amount movements +
        sumWhen (fun m => decide ((m.fromAddr, m.blockNumber) = (address, blockNumber)))
          (fun m => -m.amount) movements := by
  rw [movementLegs, List.filter_append, List.map_append, List.sum_append, sum_filter, sum_filter,
    sumWhen_map, sumWhen_map]
  rfl

theorem balanceDelta_block (movements : List TokenMovement) (address : String) (blockNumber : Int)
    (lowered : lower address = address)
    (inLower : ∀ m ∈ movements, lower m.toAddr = m.toAddr ∧ lower m.fromAddr = m.fromAddr) :
    computeBalanceDelta movements address blockNumber blockNumber =
      (((movementLegs movements).filter (·.at = (address, blockNumber))).map
        MovementLeg.netAmount).sum := by
  rw [computeBalanceDelta_eq, legs_effect, sumWhen, sumWhen, ← List.sum_map_add]
  congr 1
  apply List.map_congr_left
  intro m member
  obtain ⟨receiver, sender⟩ := inLower m member
  simp only [Transfer.effectIn, Transfer.effect, transferOf, lowered, receiver, sender, Prod.mk.injEq]
  by_cases here : m.blockNumber = blockNumber
  · have inside : ¬ (m.blockNumber < blockNumber ∨ blockNumber < m.blockNumber) := by omega
    rw [if_neg inside]
    by_cases credited : m.toAddr = address <;> by_cases debited : m.fromAddr = address <;>
      simp [here, credited, debited, sub_eq_add_neg]
  · have outside : m.blockNumber < blockNumber ∨ blockNumber < m.blockNumber := by omega
    rw [if_pos outside]
    simp [here]

/-! ## A window -/

/-- What the movements strictly between two blocks change. -/
def netBetween (movements : List TokenMovement) (address : String) (first last : Int) : Int :=
  ((movements.filter fun m => first < m.blockNumber && m.blockNumber < last).map fun m =>
    (transferOf m).effect address).sum

theorem balanceDelta_window (movements : List TokenMovement) (address : String) (first last : Int)
    (lowered : lower address = address) (ordered : first < last) :
    computeBalanceDelta movements address (first + 1) last =
      netBetween movements address first last + computeBalanceDelta movements address last last := by
  rw [computeBalanceDelta_eq, computeBalanceDelta_eq, netBetween, sum_filter, sumWhen,
    ← List.sum_map_add]
  congr 1
  apply List.map_congr_left
  intro m _
  simp only [Transfer.effectIn, lowered, Bool.and_eq_true, decide_eq_true_eq]
  have block : (transferOf m).blockNumber = m.blockNumber := rfl
  rw [block]
  split_ifs <;> omega

/-! ## Rows -/

def Consecutive (snapshots : List BalanceSnapshot) (s t : BalanceSnapshot) : Prop :=
  Adjacent BalanceSnapshot.blockNumber
    ((linkSnapshots snapshots).filter (·.holderAddress = t.holderAddress)) s t

def DistinctBlocks (snapshots : List BalanceSnapshot) : Prop :=
  ∀ holder, (((linkSnapshots snapshots).filter (·.holderAddress = holder)).map
    BalanceSnapshot.blockNumber).Nodup

theorem mem_balanceDiffs (snapshots : List BalanceSnapshot) (distinct : DistinctBlocks snapshots)
    (bd : BalanceDiff) :
    bd ∈ balanceDiffs snapshots ∧ bd.prevBlock.isSome = true ↔
      ∃ s t, Consecutive snapshots s t ∧ balanceDiff (some s, t) = bd := by
  rw [balanceDiffs, Dict.values_groupBy, List.flatMap_map]
  constructor
  · rintro ⟨member, later⟩
    obtain ⟨holder, -, made⟩ := List.mem_flatMap.mp member
    obtain ⟨⟨prev, t⟩, paired, rfl⟩ := List.mem_map.mp made
    cases prev with
    | none => cases later
    | some s =>
        have adjacent := (mem_lag_sorted_iff BalanceSnapshot.blockNumber _ (distinct holder) s t).mp paired
        have own : t.holderAddress = holder := by
          simpa using (List.mem_filter.mp adjacent.2.1).2
        subst own
        exact ⟨s, t, adjacent, rfl⟩
  · rintro ⟨s, t, adjacent, rfl⟩
    refine ⟨?_, rfl⟩
    have isLink := (List.mem_filter.mp adjacent.2.1).1
    refine List.mem_flatMap.mpr ⟨t.holderAddress, ?_, ?_⟩
    · exact (Dict.mem_keys_groupBy _ _ _).mpr (List.mem_map_of_mem isLink)
    · exact List.mem_map_of_mem
        ((mem_lag_sorted_iff BalanceSnapshot.blockNumber _ (distinct t.holderAddress) s t).mpr adjacent)

theorem joined_net (movements : List TokenMovement) (bd : BalanceDiff) (nm : Option NetMovement)
    (joined : (bd, nm) ∈ leftJoin onPoolBlock [bd] (netMovements movements)) :
    (nm.map NetMovement.netAmount).getD 0 =
      (((movementLegs movements).filter (·.at = (bd.poolAddress, bd.blockNumber))).map
        MovementLeg.netAmount).sum := by
  let keyOf : NetMovement → String × Int := fun nm => (nm.poolAddress, nm.blockNumber)
  have matched : (netMovements movements).filter (onPoolBlock bd) =
      (netMovements movements).filter (keyOf · = (bd.poolAddress, bd.blockNumber)) := by
    apply List.filter_congr
    intro nm _
    simp only [onPoolBlock, keyOf, Prod.mk.injEq, Bool.decide_and, eq_comm]
  have single := filter_groupRows MovementLeg.at netMovement keyOf (fun _ _ => rfl)
    (movementLegs movements) (bd.poolAddress, bd.blockNumber)
  rw [← netMovements, ← matched] at single
  rw [leftJoin, List.flatMap_singleton] at joined
  by_cases empty : (movementLegs movements).filter (·.at = (bd.poolAddress, bd.blockNumber)) = []
  · rw [single, if_pos empty] at joined
    cases List.mem_singleton.mp joined
    rw [empty]
    rfl
  · rw [single, if_neg empty] at joined
    cases List.mem_singleton.mp joined
    rfl

theorem exists_row (movements : List TokenMovement) (snapshots : List BalanceSnapshot)
    (distinct : DistinctBlocks snapshots) (s t : BalanceSnapshot)
    (consecutive : Consecutive snapshots s t) :
    ∃ row ∈ intPoolBalanceDeltas movements snapshots, row.poolAddress = t.holderAddress ∧
      row.prevBlock = s.blockNumber ∧ row.blockNumber = t.blockNumber := by
  have member := ((mem_balanceDiffs snapshots distinct _).mpr ⟨s, t, consecutive, rfl⟩).1
  obtain ⟨⟨bd, nm⟩, inside, rfl⟩ := exists_mem_leftJoin onPoolBlock (netMovements movements) member
  exact ⟨_, List.mem_filterMap.mpr ⟨_, inside, rfl⟩, rfl, rfl, rfl⟩

theorem row_cases (movements : List TokenMovement) (snapshots : List BalanceSnapshot)
    (distinct : DistinctBlocks snapshots) (row : PoolBalanceDeltaRow)
    (member : row ∈ intPoolBalanceDeltas movements snapshots) :
    ∃ s t, Consecutive snapshots s t ∧ row.poolAddress = t.holderAddress ∧
      row.prevBlock = s.blockNumber ∧ row.blockNumber = t.blockNumber ∧
      row.netMovementAmount =
        (((movementLegs movements).filter (·.at = (row.poolAddress, row.blockNumber))).map
          MovementLeg.netAmount).sum := by
  obtain ⟨⟨bd, nm⟩, joined, made⟩ := List.mem_filterMap.mp member
  obtain ⟨isDiff, own⟩ := (mem_leftJoin onPoolBlock).mp joined
  obtain ⟨prevBlock, later, rfl⟩ := Option.map_eq_some_iff.mp made
  obtain ⟨s, t, consecutive, rfl⟩ :=
    (mem_balanceDiffs snapshots distinct bd).mp ⟨isDiff, Option.isSome_iff_exists.mpr ⟨prevBlock, later⟩⟩
  cases later
  exact ⟨s, t, consecutive, rfl, rfl, rfl, joined_net movements _ nm own⟩

/-! ## The window law -/

theorem intTokenMovements_lower (movements : List TokenMovement) :
    ∀ m ∈ intTokenMovements movements, lower m.toAddr = m.toAddr ∧ lower m.fromAddr = m.fromAddr := by
  intro m member
  obtain ⟨source, -, rfl⟩ := List.mem_map.mp member
  exact ⟨lower_lower _, lower_lower _⟩

theorem consecutive_lower (snapshots : List BalanceSnapshot) (s t : BalanceSnapshot)
    (consecutive : Consecutive (stgBalanceSnapshots snapshots) s t) :
    lower t.holderAddress = t.holderAddress := by
  have isLink := (List.mem_filter.mp consecutive.2.1).1
  obtain ⟨source, -, rfl⟩ := List.mem_map.mp (List.mem_filter.mp isLink).1
  exact lower_lower _

theorem pool_deltas_window_iff (tokenMovements : List TokenMovement)
    (rawBalanceSnapshots : List BalanceSnapshot)
    (distinct : DistinctBlocks (stgBalanceSnapshots rawBalanceSnapshots)) :
    (∀ row ∈ intPoolBalanceDeltas (intTokenMovements tokenMovements)
        (stgBalanceSnapshots rawBalanceSnapshots),
      row.netMovementAmount = computeBalanceDelta (intTokenMovements tokenMovements) row.poolAddress
        (row.prevBlock + 1) row.blockNumber) ↔
      ∀ s t, Consecutive (stgBalanceSnapshots rawBalanceSnapshots) s t →
        netBetween (intTokenMovements tokenMovements) t.holderAddress s.blockNumber t.blockNumber =
          0 := by
  have inLower := intTokenMovements_lower tokenMovements
  have window : ∀ row ∈ intPoolBalanceDeltas (intTokenMovements tokenMovements)
        (stgBalanceSnapshots rawBalanceSnapshots), ∀ s t,
      Consecutive (stgBalanceSnapshots rawBalanceSnapshots) s t → row.poolAddress = t.holderAddress →
      row.prevBlock = s.blockNumber → row.blockNumber = t.blockNumber →
      (row.netMovementAmount = computeBalanceDelta (intTokenMovements tokenMovements) row.poolAddress
          (row.prevBlock + 1) row.blockNumber ↔
        netBetween (intTokenMovements tokenMovements) t.holderAddress s.blockNumber t.blockNumber =
          0) := by
    intro row member s t consecutive pool prev block
    obtain ⟨_, _, -, -, -, -, net⟩ := row_cases _ _ distinct row member
    have lowered := consecutive_lower rawBalanceSnapshots s t consecutive
    rw [net, pool, prev, block,
      balanceDelta_window _ _ _ _ lowered consecutive.2.2.1,
      ← balanceDelta_block _ _ _ lowered inLower]
    omega
  constructor
  · intro same s t consecutive
    obtain ⟨row, member, pool, prev, block⟩ :=
      exists_row (intTokenMovements tokenMovements) _ distinct s t consecutive
    exact (window row member s t consecutive pool prev block).mp (same row member)
  · intro quiet row member
    obtain ⟨s, t, consecutive, pool, prev, block, -⟩ := row_cases _ _ distinct row member
    exact (window row member s t consecutive pool prev block).mpr (quiet s t consecutive)

/-! ### One deposit between two snapshots -/

def poolSnapshot (blockNumber balance : Int) : BalanceSnapshot :=
  { chainId := 1
    blockNumber := blockNumber
    tokenAddress := linkTokenAddress
    holderAddress := "0xb0"
    balance := balance
    runPartitionId := "run" }

def twoSnapshots : List BalanceSnapshot := [poolSnapshot 100 20, poolSnapshot 110 25]

def depositIn (blockNumber : Int) : TokenMovement :=
  { movementId := "m"
    chainId := 1
    blockNumber := blockNumber
    txHash := "0x01"
    tokenAddress := linkTokenAddress
    fromAddr := "0xaa"
    toAddr := "0xb0"
    amount := 5
    evidenceIds := []
    sourcePriority := .log
    isCanonical := true }

theorem twoSnapshots_distinct : DistinctBlocks (stgBalanceSnapshots twoSnapshots) := by
  intro holder
  have whole : ((stgBalanceSnapshots twoSnapshots).map BalanceSnapshot.blockNumber).Nodup := by
    decide +kernel
  exact whole.sublist ((List.filter_sublist.trans List.filter_sublist).map _)

theorem pool_deltas_window_deposit :
    DistinctBlocks (stgBalanceSnapshots twoSnapshots) ∧
    ∀ row ∈ intPoolBalanceDeltas (intTokenMovements [depositIn 110]) (stgBalanceSnapshots twoSnapshots),
      row.netMovementAmount = computeBalanceDelta (intTokenMovements [depositIn 110]) row.poolAddress
        (row.prevBlock + 1) row.blockNumber := by
  constructor
  · exact twoSnapshots_distinct
  · apply (pool_deltas_window_iff [depositIn 110] twoSnapshots twoSnapshots_distinct).mpr
    rintro s t ⟨-, isT, -, -⟩
    -- the deposit is in the block of the last snapshot, so no window has it strictly inside
    have last : t.blockNumber ≤ 110 := by
      obtain ⟨source, isSource, rfl⟩ :=
        List.mem_map.mp (List.mem_filter.mp (List.mem_filter.mp isT).1).1
      have bounded : ∀ source ∈ twoSnapshots, source.blockNumber ≤ 110 := by decide
      exact bounded source isSource
    have outside : ¬ (110 : Int) < t.blockNumber := by omega
    simp [netBetween, intTokenMovements, depositIn, outside]

/-- The deposit is in the observed difference and not in the net amount. -/
theorem deposit_between_snapshots :
    DistinctBlocks (stgBalanceSnapshots twoSnapshots) ∧
    (intPoolBalanceDeltas (intTokenMovements [depositIn 105]) (stgBalanceSnapshots twoSnapshots)).map
        (fun row => (row.prevBlock, row.blockNumber, row.observedDelta, row.netMovementAmount)) =
      [(100, 110, some 5, 0)] ∧
    computeBalanceDelta (intTokenMovements [depositIn 105]) "0xb0" (100 + 1) 110 = 5 :=
  ⟨twoSnapshots_distinct, by decide +kernel, by decide +kernel⟩

end EconomicLedger.Marts
