import EconomicLedger.Matching.Coverage
import EconomicLedger.Matching.EdgeIds
import EconomicLedger.Model.Reconciliation

/-!
# The verdict on a transaction

The matcher rolls the statuses of a transaction's edges up by priority; the dbt model counts them
and decides on the counts. Both read the worst status.
-/

namespace EconomicLedger.Marts
open Model Rollup Matching

theorem statusCount_loadEdges (runPartitionId : String) (recon : TxReconciliation) (statuses : List Status) :
    statusCount (statuses.map Status.value) (loadEdges runPartitionId recon) =
      (recon.edges.filter (·.status ∈ statuses)).length := by
  rw [statusCount, loadEdges, List.filter_map, List.length_map]
  congr 1
  apply List.filter_congr
  intro edge _
  simp [List.mem_map, status_value_injective.eq_iff]

theorem statusCount_value (runPartitionId : String) (recon : TxReconciliation) (status : Status) :
    statusCount [status.value] (loadEdges runPartitionId recon) =
      recon.edges.countP (·.status = status) := by
  rw [List.countP_eq_length_filter]
  exact (statusCount_loadEdges runPartitionId recon [status]).trans (by simp only [List.mem_singleton])

def sqlVerdict : Status → String
  | .exact | .notExpected => "ok"
  | .partialMatch => "warn"
  | .unmatched | .unexpected | .ambiguous => "fail"

theorem some_status_iff (edges : List ActionMovementMatch) (statuses : List Status) :
    0 < (edges.filter (·.status ∈ statuses)).length ↔ ∃ edge ∈ edges, edge.status ∈ statuses := by
  simp only [List.length_pos_iff, ne_eq, List.filter_eq_nil_iff, decide_eq_true_eq, not_forall,
    not_not, exists_prop]

theorem fails_iff (status : Status) :
    status ∈ [Status.unmatched, .unexpected, .ambiguous] ↔ 3 ≤ severity status := by
  cases status <;> decide

theorem warns_iff (status : Status) : status ∈ [Status.partialMatch] ↔ severity status = 2 := by
  cases status <;> decide

/-- Deciding on the counts is deciding on the worst status. -/
theorem sqlOverallStatus_loadEdges (runPartitionId : String) (recon : TxReconciliation) (worst : Status)
    (given : WorstStatus recon.edges worst) :
    sqlOverallStatus (loadEdges runPartitionId recon) = sqlVerdict worst := by
  have fails : 0 < statusCount ["unmatched", "unexpected", "ambiguous"] (loadEdges runPartitionId recon) ↔
      3 ≤ severity worst := by
    rw [show ["unmatched", "unexpected", "ambiguous"] =
      [Status.unmatched, .unexpected, .ambiguous].map Status.value from rfl, statusCount_loadEdges,
      some_status_iff]
    constructor
    · rintro ⟨edge, member, failed⟩
      exact ((fails_iff _).mp failed).trans (given.bound edge member)
    · intro bad
      rcases given.reached with ⟨edge, member, rfl⟩ | ⟨-, rfl⟩
      · exact ⟨edge, member, (fails_iff _).mpr bad⟩
      · exact absurd bad (by decide)
  have warns (fine : ¬3 ≤ severity worst) :
      0 < statusCount ["partial"] (loadEdges runPartitionId recon) ↔ severity worst = 2 := by
    rw [show ["partial"] = [Status.partialMatch].map Status.value from rfl, statusCount_loadEdges,
      some_status_iff]
    constructor
    · rintro ⟨edge, member, split⟩
      have := (warns_iff _).mp split
      have := given.bound edge member
      omega
    · intro split
      rcases given.reached with ⟨edge, member, rfl⟩ | ⟨-, rfl⟩
      · exact ⟨edge, member, (warns_iff _).mpr split⟩
      · exact absurd split (by decide)
  rw [sqlOverallStatus]
  by_cases bad : 3 ≤ severity worst
  · rw [if_pos (fails.mpr bad)]
    cases worst <;> first | rfl | exact absurd bad (by decide)
  · rw [if_neg (mt fails.mp bad)]
    by_cases split : severity worst = 2
    · rw [if_pos ((warns bad).mpr split)]
      cases worst <;> first | rfl | exact absurd split (by decide)
    · rw [if_neg (mt (warns bad).mp split)]
      cases worst <;> first | rfl | exact absurd (by decide) bad | exact absurd (by decide) split

def loadedRow (runPartitionId : String) (recon : TxReconciliation) : ActionMovementReconRow :=
  actionMovementReconRow (recon.txHash, recon.chainId, recon.blockNumber) (loadEdges runPartitionId recon)

theorem intActionMovementRecon_loadEdges (runPartitionId : String) (recon : TxReconciliation)
    (nonempty : recon.edges ≠ []) :
    intActionMovementRecon (loadEdges runPartitionId recon) = [loadedRow runPartitionId recon] := by
  apply groupRows_single
  · exact mt List.map_eq_nil_iff.mp nonempty
  · intro e member
    obtain ⟨edge, -, rfl⟩ := List.mem_map.mp member
    rfl

/-- The dbt row says of a transaction what the matcher's report says. -/
structure SameVerdict (row : ActionMovementReconRow) (report : TxReconciliation) : Prop where
  tx : (row.txHash, row.chainId, row.blockNumber) = (report.txHash, report.chainId, report.blockNumber)
  ok : row.overallStatus = "ok" ↔ report.overallStatus = .exact ∨ report.overallStatus = .notExpected
  warn : row.overallStatus = "warn" ↔ report.overallStatus = .partialMatch
  fail : row.overallStatus = "fail" ↔ ¬(report.overallStatus = .exact ∨
    report.overallStatus = .notExpected ∨ report.overallStatus = .partialMatch)
  unmatched : row.unmatchedCount = report.unmatchedActions
  unexpected : row.unexpectedCount = report.unexpectedMovements
  edges : row.edgeCount = row.exactCount + row.partialCount + row.unmatchedCount +
    row.notExpectedCount + row.unexpectedCount + row.ambiguousCount

variable (sha256 : Digest)

theorem loadedRow_verdict (runPartitionId : String) (actions : List EconomicAction)
    (movements : List TokenMovement) :
    (loadedRow runPartitionId (matchTxEconomics sha256 actions movements)).overallStatus =
      sqlVerdict (matchTxEconomics sha256 actions movements).overallStatus :=
  sqlOverallStatus_loadEdges runPartitionId _ _ (matchTxEconomics_worst sha256 actions movements)

theorem tx_verdicts_agree (runPartitionId : String) (actions : List EconomicAction)
    (movements : List TokenMovement)
    (someEdge : (matchTxEconomics sha256 actions movements).edges ≠ []) :
    ∃ row, intActionMovementRecon
        (loadEdges runPartitionId (matchTxEconomics sha256 actions movements)) = [row] ∧
      SameVerdict row (matchTxEconomics sha256 actions movements) := by
  obtain ⟨edges, unmatched, unexpected, -⟩ := matchTxEconomics_fields sha256 actions movements
  have verdict := loadedRow_verdict sha256 runPartitionId actions movements
  generalize matchTxEconomics sha256 actions movements = report at *
  refine ⟨loadedRow runPartitionId report, intActionMovementRecon_loadEdges _ _ someEdge, ?_⟩
  have count (status : Status) := statusCount_value runPartitionId report status
  constructor
  · rfl
  · rw [verdict]
    cases report.overallStatus <;> decide
  · rw [verdict]
    cases report.overallStatus <;> decide
  · rw [verdict]
    cases report.overallStatus <;> decide
  · rw [unmatched, ← edges, ← List.countP_eq_length_filter]
    exact count .unmatched
  · rw [unexpected, ← List.length_map, ← filter_unexpected, ← edges, ← List.countP_eq_length_filter]
    exact count .unexpected
  · calc (loadEdges runPartitionId report).length
        = report.edges.length := List.length_map _
      _ = (Status.all.map fun status =>
            statusCount [status.value] (loadEdges runPartitionId report)).sum := by
          rw [List.map_congr_left fun status _ => count status, sum_countP_status]
      _ = _ := by
          simp only [Status.all, List.map_cons, List.map_nil, List.sum_cons, List.sum_nil, add_zero,
            ← add_assoc]
          rfl

theorem tx_verdicts_agree_stake :
    (matchTxEconomics id [stakeOf "a1" 5] [movementOf "m1" 5, movementOf "m2" 7]).edges ≠ [] ∧
      ∃ row, intActionMovementRecon (loadEdges "run-1"
          (matchTxEconomics id [stakeOf "a1" 5] [movementOf "m1" 5, movementOf "m2" 7])) = [row] ∧
        SameVerdict row (matchTxEconomics id [stakeOf "a1" 5] [movementOf "m1" 5, movementOf "m2" 7]) := by
  have someEdge : (matchTxEconomics id [stakeOf "a1" 5]
      [movementOf "m1" 5, movementOf "m2" 7]).edges ≠ [] := by
    rw [(matchTxEconomics_fields id _ _).1]
    exact List.append_ne_nil_of_left_ne_nil (by simp [actionEdges, matchActionToMovements_ne_nil]) _
  exact ⟨someEdge, tx_verdicts_agree id "run-1" _ _ someEdge⟩

end EconomicLedger.Marts
