import EconomicLedger.Marts.FlowRows
import EconomicLedger.Marts.Verdicts

/-!
# The pass rate of a partition

Python counts transactions by their worst edge, the local `reconciliation_status` counts edges. The
two agree when every transaction has a single edge, and on no other partition.
-/

namespace EconomicLedger.Marts
open Model Text Relational Rollup Keyed Matching

/-! ## Transactions with a single edge -/

/-- A lone movement, or a lone action that takes at most one movement and leaves none. -/
inductive OneEdge : List EconomicAction → List TokenMovement → Prop
  | movement {movements : List TokenMovement}
      (alone : (movements.filter fun m => lower m.txHash = headTx [] movements).length = 1) :
      OneEdge [] movements
  | action {action : EconomicAction} {movements : List TokenMovement}
      (single : ∀ subset, Settlement action movements subset → subset.length = 1)
      (taken : ¬LeftOver [action] movements) : OneEdge [action] movements

variable (sha256 : Digest)

theorem oneEdge_action (action : EconomicAction) (movements : List TokenMovement) :
    (matchActionToMovements sha256 action movements).length = 1 ↔
      ∀ subset, Settlement action movements subset → subset.length = 1 := by
  rw [(matchActionToMovements_matched sha256 action movements).length]
  simp only [← settle_eq_some_iff]
  cases settle action movements with
  | none => simp
  | some subset => simp

theorem oneEdge_iff (actions : List EconomicAction) (movements : List TokenMovement) :
    (txEdges sha256 actions movements).length = 1 ↔ OneEdge actions movements := by
  have parts : (txEdges sha256 actions movements).length =
      (actionEdges sha256 actions movements).length +
        (unmatchedMovements sha256 actions movements).length := by
    rw [txEdges, List.length_append, List.length_map]
  rw [parts]
  cases actions with
  | nil =>
      have lone : (unmatchedMovements sha256 [] movements).length =
          (movements.filter fun m => lower m.txHash = headTx [] movements).length := by
        rw [← List.length_map (f := Prod.fst), unmatchedMovements_kept]
        simp [actionEdges]
      rw [lone, actionEdges, List.flatMap_nil, List.length_nil, Nat.zero_add]
      constructor
      · exact OneEdge.movement
      · rintro ⟨alone⟩
        exact alone
  | cons action more =>
      cases more with
      | nil =>
          have own : (actionEdges sha256 [action] movements).length =
              (matchActionToMovements sha256 action movements).length := by
            rw [actionEdges, List.flatMap_singleton]
          have some : 0 < (matchActionToMovements sha256 action movements).length :=
            List.length_pos_of_ne_nil (matchActionToMovements_ne_nil sha256 action movements)
          have taken : (unmatchedMovements sha256 [action] movements).length = 0 ↔
              ¬LeftOver [action] movements := by
            rw [leftOver_iff sha256, Nat.not_lt, Nat.le_zero]
          rw [own]
          constructor
          · intro one
            exact OneEdge.action ((oneEdge_action sha256 action movements).mp (by omega))
              (taken.mp (by omega))
          · intro one
            cases one with
            | action single none =>
                rw [(oneEdge_action sha256 action movements).mpr single, taken.mpr none]
      | cons action' rest =>
          have many := length_le_flatMap (l := action :: action' :: rest)
            (fun action => matchActionToMovements sha256 action movements)
            fun action _ => matchActionToMovements_ne_nil sha256 action movements
          constructor
          · intro one
            simp only [actionEdges, List.length_cons] at one many
            omega
          · intro one
            cases one

/-! ## Counting edges and counting transactions -/

theorem worst_of_single {edges : List ActionMovementMatch} {worst : Status}
    (given : WorstStatus edges worst) (one : edges.length = 1) :
    edges.map ActionMovementMatch.status = [worst] := by
  obtain ⟨edge, rfl⟩ := List.length_eq_one_iff.mp one
  rcases given.reached with ⟨edge', member, rfl⟩ | ⟨none, -⟩
  · rw [List.mem_singleton.mp member, List.map_singleton]
  · cases none

theorem counts_agree_iff (recons : List TxReconciliation)
    (worst : ∀ recon ∈ recons, WorstStatus recon.edges recon.overallStatus)
    (someEdge : ∀ recon ∈ recons, recon.edges ≠ []) :
    (∀ status, (recons.flatMap TxReconciliation.edges).countP (·.status = status) =
      recons.countP (·.overallStatus = status)) ↔ ∀ recon ∈ recons, recon.edges.length = 1 := by
  rw [← length_flatMap_eq_iff TxReconciliation.edges someEdge]
  constructor
  · intro agree
    rw [← sum_countP_status ActionMovementMatch.status, ← sum_countP_status TxReconciliation.overallStatus]
    exact congrArg List.sum (List.map_congr_left fun status _ => agree status)
  · intro same status
    have single := (length_flatMap_eq_iff TxReconciliation.edges someEdge).mp same
    have statuses : (recons.flatMap TxReconciliation.edges).map ActionMovementMatch.status =
        recons.map TxReconciliation.overallStatus := by
      rw [List.map_flatMap, ← List.flatMap_pure_eq_map]
      apply List.flatMap_congr
      intro recon member
      exact worst_of_single (worst recon member) (single recon member)
    have counted := congrArg (List.countP (· = status)) statuses
    rwa [List.countP_map, List.countP_map] at counted

theorem statusCount_loaded (runPartitionId : String) (recons : List TxReconciliation)
    (group : List ActionMovementEdge) (loaded : group.Perm (recons.flatMap (loadEdges runPartitionId)))
    (status : Status) : statusCount [status.value] group =
      (recons.flatMap TxReconciliation.edges).countP (·.status = status) := by
  have each : ∀ recon ∈ recons, (loadEdges runPartitionId recon).countP (·.status ∈ [status.value]) =
      recon.edges.countP (·.status = status) := by
    intro recon _
    rw [← statusCount_value runPartitionId, statusCount, List.countP_eq_length_filter]
  rw [statusCount, ← List.countP_eq_length_filter, loaded.countP_eq, List.countP_flatMap,
    List.countP_flatMap]
  exact congrArg List.sum (List.map_congr_left each)

/-! ## The counts as text -/

theorem numeral_inj (label rest : String) (starts : label.toList = ',' :: rest.toList) (n n' : Nat)
    (s s' : String) : toString n ++ (label ++ s) = toString n' ++ (label ++ s') ↔ n = n' ∧ s = s' := by
  have free (k : Nat) : ',' ∉ (toString k).toList := notMem_nat ',' (by decide) k
  rw [String.ext_iff]
  simp only [String.toList_append, starts, List.cons_append]
  rw [append_cons_inj (free n) (free n'), ← String.ext_iff, toString_nat_inj, List.append_right_inj,
    ← String.ext_iff]

theorem countsJson_inj (a b c d e f a' b' c' d' e' f' : Nat) :
    countsJson a b c d e f = countsJson a' b' c' d' e' f' ↔
      a = a' ∧ b = b' ∧ c = c' ∧ d = d' ∧ e = e' ∧ f = f' := by
  unfold countsJson
  simp only [String.append_assoc]
  rw [String.append_right_inj, numeral_inj ",\"partial\":" "\"partial\":" (by decide)]
  refine and_congr_right fun _ => ?_
  rw [numeral_inj ",\"unmatched\":" "\"unmatched\":" (by decide)]
  refine and_congr_right fun _ => ?_
  rw [numeral_inj ",\"not_expected\":" "\"not_expected\":" (by decide)]
  refine and_congr_right fun _ => ?_
  rw [numeral_inj ",\"unexpected\":" "\"unexpected\":" (by decide)]
  refine and_congr_right fun _ => ?_
  rw [numeral_inj ",\"ambiguous\":" "\"ambiguous\":" (by decide)]
  refine and_congr_right fun _ => ?_
  rw [String.append_left_inj, toString_nat_inj]

/-- Python's counters in the form of the column. -/
def countsText (countsByStatus : Dict Status Nat) : String :=
  let count (status : Status) := (countsByStatus.get? status).getD 0
  countsJson (count .exact) (count .partialMatch) (count .unmatched) (count .notExpected)
    (count .unexpected) (count .ambiguous)

theorem countsText_eq_iff (recons : List TxReconciliation) (a b c d e f : Nat) :
    countsJson a b c d e f = countsText (countStatuses recons) ↔
      a = recons.countP (·.overallStatus = .exact) ∧ b = recons.countP (·.overallStatus = .partialMatch) ∧
      c = recons.countP (·.overallStatus = .unmatched) ∧
      d = recons.countP (·.overallStatus = .notExpected) ∧
      e = recons.countP (·.overallStatus = .unexpected) ∧
      f = recons.countP (·.overallStatus = .ambiguous) := by
  simp only [countsText, countStatuses_get?, Option.getD_some]
  exact countsJson_inj _ _ _ _ _ _ _ _ _ _ _ _

theorem forall_status_iff (p : Status → Prop) : (∀ status, p status) ↔
    p .exact ∧ p .partialMatch ∧ p .unmatched ∧ p .notExpected ∧ p .unexpected ∧ p .ambiguous := by
  constructor
  · intro all
    exact ⟨all _, all _, all _, all _, all _, all _⟩
  · rintro ⟨exact, split, unmatched, notExpected, unexpected, ambiguous⟩ status
    cases status <;> assumption

/-! ## The row of a chain -/

theorem reconciliationStatus_chain (table : List ActionMovementEdge) (blocks : CanonicalBlocks)
    (chainId : Int) (nonempty : table.filter (·.chainId = chainId) ≠ [])
    (tip : onBlocks blocks chainId
      (chainEdges chainId (table.filter (·.chainId = chainId))).blockRangeEnd = true) :
    (reconciliationStatus sha256 table blocks).filter (·.chainId = chainId) =
      [reconciliationStatusRow sha256 (chainEdges chainId (table.filter (·.chainId = chainId)))] := by
  have single (edges : ChainEdges) : (blocks.rows.filter (onTipBlock edges)).length ≤ 1 := by
    apply filter_length_le_one CanonicalBlock.height blocks.unique _ (edges.chainId, edges.blockRangeEnd)
    intro cb here
    simp only [onTipBlock, Bool.and_eq_true, decide_eq_true_eq] at here
    rw [CanonicalBlock.height, here.1, here.2]
  let groups := groupRows ActionMovementEdge.chainId chainEdges table
  have rows : reconciliationStatus sha256 table blocks =
      (groups.filter fun edges => onBlocks blocks edges.chainId edges.blockRangeEnd).map
        (reconciliationStatusRow sha256) := by
    have kept := innerJoin_left onTipBlock fun edges (_ : edges ∈ groups) => single edges
    calc reconciliationStatus sha256 table blocks
        = ((innerJoin onTipBlock groups blocks.rows).map Prod.fst).map (reconciliationStatusRow sha256) := by
          rw [List.map_map]
          rfl
      _ = _ := by
          rw [kept]
          rfl
  have own : groups.filter (·.chainId = chainId) =
      [chainEdges chainId (table.filter (·.chainId = chainId))] := by
    rw [filter_groupRows ActionMovementEdge.chainId chainEdges ChainEdges.chainId fun _ _ => rfl,
      if_neg nonempty]
  calc (reconciliationStatus sha256 table blocks).filter (·.chainId = chainId)
      = ((groups.filter (·.chainId = chainId)).filter fun edges =>
          onBlocks blocks edges.chainId edges.blockRangeEnd).map (reconciliationStatusRow sha256) := by
        rw [rows, List.filter_map, List.filter_filter, List.filter_filter]
        congr 1
        exact List.filter_congr fun edges _ => Bool.and_comm _ _
    _ = _ := by
        rw [own, List.filter_eq_self.mpr]
        · rfl
        · intro edges member
          rw [List.mem_singleton.mp member]
          exact tip

/-- The chain's edges in the table are those of the transactions, and their tip is canonical. -/
structure Loaded (table : List ActionMovementEdge) (blocks : CanonicalBlocks) (chainId : Int)
    (runPartitionId : String) (recons : List TxReconciliation) : Prop where
  someTx : recons ≠ []
  someEdge : ∀ recon ∈ recons, recon.edges ≠ []
  edges : (table.filter (·.chainId = chainId)).Perm (recons.flatMap (loadEdges runPartitionId))
  tip : ∃ recon ∈ recons, (∀ other ∈ recons, other.blockNumber ≤ recon.blockNumber) ∧
    onBlocks blocks chainId recon.blockNumber = true

structure SameFigures (row : ReconciliationStatusRow) (report : PartitionReconciliation) : Prop where
  passRate : row.passRate = some report.passRate
  countsByStatus : row.countsByStatus = countsText report.countsByStatus

section Figures
variable {sha256}
variable {table : List ActionMovementEdge} {blocks : CanonicalBlocks} {chainId : Int}
  {runPartitionId : String} {recons : List TxReconciliation}

theorem Loaded.length (loaded : Loaded table blocks chainId runPartitionId recons) :
    (table.filter (·.chainId = chainId)).length = (recons.flatMap TxReconciliation.edges).length := by
  rw [loaded.edges.length_eq, List.length_flatMap, List.length_flatMap]
  exact congrArg List.sum (List.map_congr_left fun recon _ => List.length_map _)

theorem Loaded.positive (loaded : Loaded table blocks chainId runPartitionId recons) :
    0 < (table.filter (·.chainId = chainId)).length := by
  have least := length_le_flatMap TxReconciliation.edges loaded.someEdge
  have some := List.length_pos_of_ne_nil loaded.someTx
  rw [loaded.length]
  omega

theorem Loaded.blockRangeEnd (loaded : Loaded table blocks chainId runPartitionId recons) :
    onBlocks blocks chainId
      (chainEdges chainId (table.filter (·.chainId = chainId))).blockRangeEnd = true := by
  obtain ⟨tip, isTip, highest, canonical⟩ := loaded.tip
  have at_tip : ((table.filter (·.chainId = chainId)).map ActionMovementEdge.blockNumber).max? =
      some tip.blockNumber := by
    rw [List.max?_eq_some_iff]
    constructor
    · obtain ⟨edge, member⟩ := List.exists_mem_of_ne_nil _ (loaded.someEdge tip isTip)
      exact List.mem_map.mpr ⟨_, loaded.edges.mem_iff.mpr
        (List.mem_flatMap.mpr ⟨tip, isTip, List.mem_map_of_mem member⟩), rfl⟩
    · rintro n member
      obtain ⟨e, inside, rfl⟩ := List.mem_map.mp member
      obtain ⟨recon, isRecon, own⟩ := List.mem_flatMap.mp (loaded.edges.mem_iff.mp inside)
      obtain ⟨edge, -, rfl⟩ := List.mem_map.mp own
      exact highest recon isRecon
  have reached : (chainEdges chainId (table.filter (·.chainId = chainId))).blockRangeEnd =
      tip.blockNumber := by
    rw [chainEdges, at_tip, Option.getD_some]
  rw [reached, canonical]

/-- The figures agree when every transaction has one edge, and only then. -/
theorem Loaded.sameFigures_iff (loaded : Loaded table blocks chainId runPartitionId recons)
    (worst : ∀ recon ∈ recons, WorstStatus recon.edges recon.overallStatus)
    (report : PartitionReconciliation) (counts : report.countsByStatus = countStatuses recons)
    (rate : report.passRate = passRate (countStatuses recons) recons.length) :
    SameFigures (reconciliationStatusRow sha256
        (chainEdges chainId (table.filter (·.chainId = chainId)))) report ↔
      ∀ recon ∈ recons, recon.edges.length = 1 := by
  have counted (status : Status) :=
    statusCount_loaded runPartitionId recons _ loaded.edges status
  have agree := counts_agree_iff recons worst loaded.someEdge
  have text : (reconciliationStatusRow sha256 (chainEdges chainId
      (table.filter (·.chainId = chainId)))).countsByStatus = countsText (countStatuses recons) ↔
      ∀ status, statusCount [status.value] (table.filter (·.chainId = chainId)) =
        recons.countP (·.overallStatus = status) := by
    rw [forall_status_iff]
    exact countsText_eq_iff recons _ _ _ _ _ _
  simp only [counted] at text
  constructor
  · rintro ⟨-, same⟩
    rw [counts] at same
    exact agree.mp (text.mp same)
  · intro single
    have same := agree.mpr single
    refine ⟨?_, by rw [counts]; exact text.mpr same⟩
    have length : (table.filter (·.chainId = chainId)).length = recons.length := by
      rw [loaded.length]
      exact (length_flatMap_eq_iff _ loaded.someEdge).mpr single
    have exact := (counted .exact).trans (same .exact)
    have notExpected := (counted .notExpected).trans (same .notExpected)
    simp only [Status.value] at exact notExpected
    have positive := loaded.positive
    rw [rate, passRate, countStatuses_get?, countStatuses_get?]
    simp only [reconciliationStatusRow, chainEdges, exact, notExpected, Option.getD_some]
    rw [if_neg positive.ne', length, if_pos (length ▸ positive)]

end Figures

variable (actionsByTx : Option (Dict String (List EconomicAction)))
  (movementsByTx : Option (Dict String (List TokenMovement)))

theorem pass_rate_agrees_iff (chainId fromBlock toBlock : Int) (runPartitionId : String)
    (table : List ActionMovementEdge) (blocks : CanonicalBlocks)
    (loaded : Loaded table blocks chainId runPartitionId
      (reconcilePartition sha256 chainId fromBlock toBlock actionsByTx movementsByTx).txRecons) :
    ∃ row, (reconciliationStatus sha256 table blocks).filter (·.chainId = chainId) = [row] ∧
      (SameFigures row
          (reconcilePartition sha256 chainId fromBlock toBlock actionsByTx movementsByTx) ↔
        ∀ txHash ∈ allTxHashes (actionsByTx.getD Dict.empty) (movementsByTx.getD Dict.empty),
          OneEdge (actionsUnder actionsByTx txHash) (movementsUnder movementsByTx txHash)) := by
  have recons : (reconcilePartition sha256 chainId fromBlock toBlock actionsByTx movementsByTx).txRecons =
      (allTxHashes (actionsByTx.getD Dict.empty) (movementsByTx.getD Dict.empty)).map fun txHash =>
        matchTxEconomics sha256 (actionsUnder actionsByTx txHash) (movementsUnder movementsByTx txHash) :=
    rfl
  have worst : ∀ recon ∈ (reconcilePartition sha256 chainId fromBlock toBlock actionsByTx
      movementsByTx).txRecons, WorstStatus recon.edges recon.overallStatus := by
    rw [recons, List.forall_mem_map]
    exact fun txHash _ => matchTxEconomics_worst sha256 _ _
  refine ⟨_, reconciliationStatus_chain sha256 table blocks chainId
    (List.ne_nil_of_length_pos loaded.positive) loaded.blockRangeEnd, ?_⟩
  rw [loaded.sameFigures_iff worst _ rfl rfl, recons, List.forall_mem_map]
  apply forall₂_congr
  intro txHash _
  rw [← oneEdge_iff sha256, (matchTxEconomics_fields sha256 _ _).1]

/-! ### A settled stake, without and with a movement nobody expects -/

def settledByTx : Option (Dict String (List TokenMovement)) :=
  some (Dict.empty.set "0x01" [movementOf "m1" 5])

def settledReport : PartitionReconciliation := reconcilePartition id 1 100 200 stakesByTx settledByTx

def settledEdges : List ActionMovementEdge := settledReport.txRecons.flatMap (loadEdges "run")

theorem settled_loaded : Loaded settledEdges blockHundred 1 "run" settledReport.txRecons where
  someTx := by decide +kernel
  someEdge := by decide +kernel
  edges := List.Perm.of_eq (by decide +kernel)
  tip := by decide +kernel

theorem stake_oneEdge : OneEdge [stakeOf "a1" 5] [movementOf "m1" 5] := by
  have settled : settle (stakeOf "a1" 5) [movementOf "m1" 5] = some [movementOf "m1" 5] := by
    decide +kernel
  apply OneEdge.action
  · intro subset taken
    rw [← settle_eq_some_iff] at taken
    rw [← Option.some.inj (settled.symm.trans taken), List.length_singleton]
  · rintro ⟨m, member, -, untaken⟩
    have takes : Takes (stakeOf "a1" 5) [movementOf "m1" 5] (movementOf "m1" 5) := by
      rw [takes_iff, settled]
      exact List.mem_singleton_self _
    refine untaken _ (List.mem_singleton_self _) _ takes ?_
    rw [List.mem_singleton.mp member]

theorem pass_rate_agrees_settled :
    ∃ row, (reconciliationStatus id settledEdges blockHundred).filter (·.chainId = 1) = [row] ∧
      SameFigures row settledReport := by
  obtain ⟨row, only, agree⟩ := pass_rate_agrees_iff id stakesByTx settledByTx 1 100 200 "run"
    settledEdges blockHundred settled_loaded
  have hashes : allTxHashes (stakesByTx.getD Dict.empty) (settledByTx.getD Dict.empty) = ["0x01"] := by
    decide +kernel
  refine ⟨row, only, agree.mpr ?_⟩
  rw [hashes, List.forall_mem_singleton]
  exact stake_oneEdge

def mixedReport : PartitionReconciliation := reconcilePartition id 1 100 200 stakesByTx movedByTx

def mixedEdges : List ActionMovementEdge := mixedReport.txRecons.flatMap (loadEdges "run")

theorem mixed_loaded : Loaded mixedEdges blockHundred 1 "run" mixedReport.txRecons where
  someTx := by decide +kernel
  someEdge := by decide +kernel
  edges := List.Perm.of_eq (by decide +kernel)
  tip := by decide +kernel

/-- Half of the edges pass, and none of the transactions. -/
theorem mixed_tx_half_passes : Loaded mixedEdges blockHundred 1 "run" mixedReport.txRecons ∧
    (reconciliationStatus id mixedEdges blockHundred).map ReconciliationStatusRow.passRate =
      [some (1 / 2)] ∧ mixedReport.passRate = 0 ∧
    ∀ row ∈ reconciliationStatus id mixedEdges blockHundred, ¬ SameFigures row mixedReport := by
  have half : (reconciliationStatus id mixedEdges blockHundred).map ReconciliationStatusRow.passRate =
      [some (1 / 2)] := by decide +kernel
  have zero : mixedReport.passRate = 0 := by decide +kernel
  refine ⟨mixed_loaded, half, zero, ?_⟩
  intro row member same
  have shown := List.mem_map_of_mem (f := ReconciliationStatusRow.passRate) member
  rw [half, List.mem_singleton, same.passRate, zero] at shown
  exact absurd (Option.some.inj shown) (by norm_num)

end EconomicLedger.Marts
