import EconomicLedger.Model.Reconciliation
import EconomicLedger.Model.SeedScript

/-!
# Runs of the dbt project

The incremental models on the local target, in the order of their references. A model reads the tables of the
models before it and, after the first run, its own table. The daily rollups are left out: their incremental
filter asks for the highest `block_number` of a table that has no such column.
-/

namespace EconomicLedger.Model
open Text Relational Rollup

structure DbtSources where
  economicActions : List EconomicActionRow
  tokenMovements : List TokenMovementRow
  actionMovementEdges : List ActionMovementEdge
  ledgerEntries : List LedgerEntryRow
  canonicalBlocks : CanonicalBlocks

/-! ## Seeds -/

/-- An empty cell is `NULL`. -/
def nullable (cell : String) : Option String := if cell = "" then none else some cell

def seedAction (row : EconomicActionRow) : EconomicActionRow :=
  { row with action := { row.action with wallet := row.action.wallet.bind nullable } }

def seedEdge (row : EdgeRow) : ActionMovementEdge :=
  { edgeId := row.edgeId
    actionId := nullable row.actionId
    movementId := nullable row.movementId
    allocatedAmount := row.allocatedAmount
    status := row.status
    method := nullable row.method
    reason := row.reason
    chainId := row.chainId
    blockNumber := row.blockNumber
    txHash := row.txHash
    runPartitionId := row.runPartitionId }

/-- The sources on the local target. -/
def seedSources (seeds : SeedTables) (canonicalBlocks : CanonicalBlocks) : DbtSources :=
  { economicActions := seeds.economicActions.map seedAction
    tokenMovements := seeds.tokenMovements
    actionMovementEdges := seeds.actionMovementEdges.map seedEdge
    ledgerEntries := seeds.ledgerEntries
    canonicalBlocks := canonicalBlocks }

/-! ## Models -/

structure Warehouse where
  intEconomicActions : List EconomicActionRow
  intTokenMovements : List TokenMovementRow
  intActionMovementRecon : List ActionMovementReconRow
  ledgerEntries : List LedgerEntryRow
  stakingLinkFlows : List StakingLinkFlowRow
  reconciliationStatus : List ReconciliationStatusRow

section Materializations
variable {ρ κ : Type} [DecidableEq κ]

/-- `incremental_strategy='merge'` without a filter. -/
def mergeModel (uniqueKey : ρ → κ) (this : Option (List ρ)) (selected : List ρ) : List ρ :=
  match this with
  | none => selected
  | some table => mergeOn uniqueKey table selected

/-- `incremental_strategy='merge'` with `incremental_block_predicate`. -/
def incrementalModel (uniqueKey : ρ → κ) (blockNumber : ρ → Int) (this : Option (List ρ))
    (selected : List ρ) : List ρ :=
  match this with
  | none => selected
  | some table => mergeOn uniqueKey table
      (selected.filter fun r => incrementalBlockPredicate ((table.map blockNumber).max?.getD 0) (blockNumber r))

end Materializations

def intTokenMovementRows (tokenMovements : List TokenMovementRow) : List TokenMovementRow :=
  tokenMovements.map fun row =>
    { row with movement := { row.movement with
        tokenAddress := lower row.movement.tokenAddress
        fromAddr := lower row.movement.fromAddr
        toAddr := lower row.movement.toAddr } }

/-- `staking_link_flows` over the tables of the models it refers to. -/
def stakingLinkFlowRows (economicActions : List EconomicActionRow) (blocks : CanonicalBlocks)
    (recon : List ActionMovementReconRow) : List StakingLinkFlowRow :=
  (leftJoin onTxHash (innerJoin onCanonicalBlock economicActions blocks.rows) recon).filterMap flowRow

/-- `dbt run`, over the tables of an earlier run if there was one. -/
def dbtRun (sha256 : Digest) (this : Option Warehouse) (sources : DbtSources) : Warehouse :=
  let actions := incrementalModel (·.action.actionId) (·.action.blockNumber)
    (this.map Warehouse.intEconomicActions) (intEconomicActions sources.economicActions sources.canonicalBlocks)
  let recon := mergeModel ActionMovementReconRow.txHash (this.map Warehouse.intActionMovementRecon)
    (intActionMovementRecon sources.actionMovementEdges)
  { intEconomicActions := actions
    intTokenMovements := incrementalModel (·.movement.movementId) (·.movement.blockNumber)
      (this.map Warehouse.intTokenMovements) (intTokenMovementRows sources.tokenMovements)
    intActionMovementRecon := recon
    ledgerEntries := ledgerEntriesMart (this.map Warehouse.ledgerEntries)
      ⟨sources.ledgerEntries, sources.canonicalBlocks⟩
    stakingLinkFlows := incrementalModel StakingLinkFlowRow.eventId StakingLinkFlowRow.blockNumber
      (this.map Warehouse.stakingLinkFlows) (stakingLinkFlowRows actions sources.canonicalBlocks recon)
    reconciliationStatus := mergeModel ReconciliationStatusRow.partitionId
      (this.map Warehouse.reconciliationStatus)
      (reconciliationStatus sha256 sources.actionMovementEdges sources.canonicalBlocks) }

/-- The warehouse after the first run and a number of later ones. -/
def warehouseAfter (sha256 : Digest) (schedule : Nat → DbtSources) : Nat → Warehouse
  | 0 => dbtRun sha256 none (schedule 0)
  | run + 1 => dbtRun sha256 (some (warehouseAfter sha256 schedule run)) (schedule (run + 1))

end EconomicLedger.Model
