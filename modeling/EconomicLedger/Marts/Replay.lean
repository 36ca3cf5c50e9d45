import EconomicLedger.Lib.Payload
import EconomicLedger.Marts.FlowStatus
import EconomicLedger.Marts.LedgerMerge
import EconomicLedger.Model.Warehouse

/-!
# Replays of the warehouse

A run over the sources of an earlier one, under another `run_partition_id`, leaves the content of every model.
-/

namespace EconomicLedger.Marts
open Model Text Relational Rollup Payload

/-! ## Rows without their run -/

def untagAction (row : EconomicActionRow) : EconomicActionRow := { row with runPartitionId := "" }

def untagMovement (row : TokenMovementRow) : TokenMovementRow := { row with runPartitionId := "" }

def untagEdge (row : ActionMovementEdge) : ActionMovementEdge := { row with runPartitionId := "" }

def untagEntry (row : LedgerEntryRow) : LedgerEntryRow := { row with runPartitionId := "" }

def untagBlock (row : CanonicalBlock) : CanonicalBlock := { row with runPartitionId := "" }

def untagRecon (row : ActionMovementReconRow) : ActionMovementReconRow := { row with runPartitionId := "" }

def untagFlow (row : StakingLinkFlowRow) : StakingLinkFlowRow := { row with runPartitionId := "" }

def untagStatus (row : ReconciliationStatusRow) : ReconciliationStatusRow := { row with runPartitionId := "" }

def untagChain (row : ChainEdges) : ChainEdges := { row with runPartitionId := "" }

/-- The same sources, loaded by different runs. -/
structure SameSources (sources sources' : DbtSources) : Prop where
  economicActions : Same untagAction sources.economicActions sources'.economicActions
  tokenMovements : Same untagMovement sources.tokenMovements sources'.tokenMovements
  actionMovementEdges : Same untagEdge sources.actionMovementEdges sources'.actionMovementEdges
  ledgerEntries : Same untagEntry sources.ledgerEntries sources'.ledgerEntries
  canonicalBlocks : Same untagBlock sources.canonicalBlocks.rows sources'.canonicalBlocks.rows

/-- The same content of every model. -/
structure SameContent (warehouse warehouse' : Warehouse) : Prop where
  intEconomicActions : Same untagAction warehouse.intEconomicActions warehouse'.intEconomicActions
  intTokenMovements : Same untagMovement warehouse.intTokenMovements warehouse'.intTokenMovements
  intActionMovementRecon : Same untagRecon warehouse.intActionMovementRecon warehouse'.intActionMovementRecon
  ledgerEntries : Same untagEntry warehouse.ledgerEntries warehouse'.ledgerEntries
  stakingLinkFlows : Same untagFlow warehouse.stakingLinkFlows warehouse'.stakingLinkFlows
  reconciliationStatus : Same untagStatus warehouse.reconciliationStatus warehouse'.reconciliationStatus

/-- The `unique` tests of the models. -/
structure UniqueTests (warehouse : Warehouse) : Prop where
  actionId : (warehouse.intEconomicActions.map (·.action.actionId)).Nodup
  movementId : (warehouse.intTokenMovements.map (·.movement.movementId)).Nodup
  txHash : (warehouse.intActionMovementRecon.map ActionMovementReconRow.txHash).Nodup
  entryId : (warehouse.ledgerEntries.map (·.entry.entryId)).Nodup
  eventId : (warehouse.stakingLinkFlows.map StakingLinkFlowRow.eventId).Nodup
  partitionId : (warehouse.reconciliationStatus.map ReconciliationStatusRow.partitionId).Nodup

/-! ## What the models select -/

theorem onCanonicalBlock_untag (a : EconomicActionRow) (cb : CanonicalBlock) :
    onCanonicalBlock (untagAction a) (untagBlock cb) = onCanonicalBlock a cb := rfl

theorem onEntryBlock_untag (le : LedgerEntryRow) (cb : CanonicalBlock) :
    onEntryBlock (untagEntry le) (untagBlock cb) = onEntryBlock le cb := rfl

theorem onTxHash_untag (pair : EconomicActionRow × CanonicalBlock) (r : ActionMovementReconRow) :
    onTxHash (Prod.map untagAction untagBlock pair) (untagRecon r) = onTxHash pair r := rfl

theorem onTipBlock_untag (edges : ChainEdges) (cb : CanonicalBlock) :
    onTipBlock (untagChain edges) (untagBlock cb) = onTipBlock edges cb := rfl

theorem flowRow_untag (row : (EconomicActionRow × CanonicalBlock) × Option ActionMovementReconRow) :
    (flowRow (Prod.map (Prod.map untagAction untagBlock) (Option.map untagRecon) row)).map untagFlow =
      (flowRow row).map untagFlow := by
  obtain ⟨⟨a, cb⟩, recon⟩ := row
  have status : flowReconciliationStatus (recon.map untagRecon) = flowReconciliationStatus recon := by
    cases recon <;> rfl
  simp only [flowRow, Prod.map, Option.map_map, status]
  rfl

theorem statusCount_same (statuses : List String) {group group' : List ActionMovementEdge}
    (same : Same untagEdge group group') : statusCount statuses group = statusCount statuses group' := by
  have kept := same.filter (fun e : ActionMovementEdge => e.status ∈ statuses) fun _ => rfl
  have size := List.Perm.length_eq kept
  rw [List.length_map, List.length_map] at size
  exact size

theorem reconRow_same (key : String × Int × Int) (group group' : List ActionMovementEdge)
    (same : Same untagEdge group group') :
    untagRecon (actionMovementReconRow key group) = untagRecon (actionMovementReconRow key group') := by
  have size : group.length = group'.length := by simpa [Same] using List.Perm.length_eq same
  simp only [untagRecon, actionMovementReconRow, sqlOverallStatus, statusCount_same _ same, size]

theorem chainEdges_same (chainId : Int) (group group' : List ActionMovementEdge)
    (same : Same untagEdge group group') :
    untagChain (chainEdges chainId group) = untagChain (chainEdges chainId group') := by
  have size : group.length = group'.length := by simpa [Same] using List.Perm.length_eq same
  have blocks := same.measure ActionMovementEdge.blockNumber fun _ => rfl
  simp only [untagChain, chainEdges, statusCount_same _ same, size, min?_perm blocks, max?_perm blocks]

theorem intActionMovementRecon_same {edges edges' : List ActionMovementEdge} (same : Same untagEdge edges edges') :
    Same untagRecon (intActionMovementRecon edges) (intActionMovementRecon edges') :=
  same.groupRows ActionMovementEdge.tx actionMovementReconRow (fun _ => rfl) reconRow_same

theorem intTokenMovementRows_same {rows rows' : List TokenMovementRow} (same : Same untagMovement rows rows') :
    Same untagMovement (intTokenMovementRows rows) (intTokenMovementRows rows') :=
  same.map _ fun _ => rfl

section Selected
variable {blocks blocks' : CanonicalBlocks} (sameBlocks : Same untagBlock blocks.rows blocks'.rows)
include sameBlocks

theorem intEconomicActions_same {rows rows' : List EconomicActionRow} (same : Same untagAction rows rows') :
    Same untagAction (intEconomicActions rows blocks) (intEconomicActions rows' blocks') :=
  (Same.innerJoin onCanonicalBlock onCanonicalBlock_untag same sameBlocks).map _ fun _ => rfl

theorem visible_same {rows rows' : List LedgerEntryRow} (same : Same untagEntry rows rows') :
    Same untagEntry (LedgerSource.visible ⟨rows, blocks⟩) (LedgerSource.visible ⟨rows', blocks'⟩) :=
  (Same.innerJoin onEntryBlock onEntryBlock_untag same sameBlocks).map _ fun _ => rfl

theorem stakingLinkFlowRows_same {actions actions' : List EconomicActionRow}
    (sameActions : Same untagAction actions actions') {recon recon' : List ActionMovementReconRow}
    (sameRecon : Same untagRecon recon recon') :
    Same untagFlow (stakingLinkFlowRows actions blocks recon) (stakingLinkFlowRows actions' blocks' recon') :=
  (Same.leftJoin onTxHash onTxHash_untag
    (Same.innerJoin onCanonicalBlock onCanonicalBlock_untag sameActions sameBlocks) sameRecon).filterMap
      flowRow flowRow_untag

theorem reconciliationStatus_same (sha256 : Digest) {edges edges' : List ActionMovementEdge}
    (same : Same untagEdge edges edges') :
    Same untagStatus (reconciliationStatus sha256 edges blocks) (reconciliationStatus sha256 edges' blocks') := by
  have chains : Same untagChain (groupRows ActionMovementEdge.chainId chainEdges edges)
      (groupRows ActionMovementEdge.chainId chainEdges edges') :=
    same.groupRows ActionMovementEdge.chainId chainEdges (fun _ => rfl) chainEdges_same
  exact (Same.innerJoin onTipBlock onTipBlock_untag chains sameBlocks).map _ fun _ => rfl

end Selected

/-! ## Runs -/

section Merged
variable {ρ κ : Type} [DecidableEq κ] {untag : ρ → ρ} {table known selected : List ρ}
  (current : Same untag table known) (replay : Same untag selected known) (uniqueKey : ρ → κ)
  (blind : ∀ r, uniqueKey (untag r) = uniqueKey r) (unique : (known.map uniqueKey).Nodup)
include current replay blind unique

theorem incrementalModel_same (blockNumber : ρ → Int) :
    Same untag (incrementalModel uniqueKey blockNumber (some table) selected) known :=
  current.mergeOn replay uniqueKey blind unique _

theorem mergeModel_same : Same untag (mergeModel uniqueKey (some table) selected) known := by
  have merged := current.mergeOn replay uniqueKey blind unique fun _ => true
  rwa [List.filter_true] at merged

end Merged

/-- One replay. -/
theorem dbtRun_same (sha256 : Digest) {sources sources' : DbtSources} (same : SameSources sources' sources)
    (unique : UniqueTests (dbtRun sha256 none sources)) {this : Warehouse}
    (current : SameContent this (dbtRun sha256 none sources)) :
    SameContent (dbtRun sha256 (some this) sources') (dbtRun sha256 none sources) := by
  have blocks := same.canonicalBlocks
  have actions : Same untagAction (dbtRun sha256 (some this) sources').intEconomicActions
      (dbtRun sha256 none sources).intEconomicActions :=
    incrementalModel_same current.intEconomicActions (intEconomicActions_same blocks same.economicActions)
      (·.action.actionId) (fun _ => rfl) unique.actionId _
  have recon : Same untagRecon (dbtRun sha256 (some this) sources').intActionMovementRecon
      (dbtRun sha256 none sources).intActionMovementRecon :=
    mergeModel_same current.intActionMovementRecon (intActionMovementRecon_same same.actionMovementEdges)
      ActionMovementReconRow.txHash (fun _ => rfl) unique.txHash
  exact {
    intEconomicActions := actions
    intTokenMovements := incrementalModel_same current.intTokenMovements
      (intTokenMovementRows_same same.tokenMovements) (·.movement.movementId) (fun _ => rfl) unique.movementId _
    intActionMovementRecon := recon
    ledgerEntries := current.ledgerEntries.mergeOn (visible_same blocks same.ledgerEntries)
      (·.entry.entryId) (fun _ => rfl) unique.entryId _
    stakingLinkFlows := incrementalModel_same current.stakingLinkFlows
      (stakingLinkFlowRows_same blocks actions recon) StakingLinkFlowRow.eventId (fun _ => rfl) unique.eventId _
    reconciliationStatus := mergeModel_same current.reconciliationStatus
      (reconciliationStatus_same blocks sha256 same.actionMovementEdges)
      ReconciliationStatusRow.partitionId (fun _ => rfl) unique.partitionId }

theorem uniqueTests_same {warehouse warehouse' : Warehouse} (same : SameContent warehouse warehouse')
    (unique : UniqueTests warehouse') : UniqueTests warehouse where
  actionId := (same.intEconomicActions.measure (·.action.actionId) fun _ => rfl).nodup_iff.mpr unique.actionId
  movementId :=
    (same.intTokenMovements.measure (·.movement.movementId) fun _ => rfl).nodup_iff.mpr unique.movementId
  txHash := (same.intActionMovementRecon.measure _ fun _ => rfl).nodup_iff.mpr unique.txHash
  entryId := (same.ledgerEntries.measure (·.entry.entryId) fun _ => rfl).nodup_iff.mpr unique.entryId
  eventId := (same.stakingLinkFlows.measure _ fun _ => rfl).nodup_iff.mpr unique.eventId
  partitionId := (same.reconciliationStatus.measure _ fun _ => rfl).nodup_iff.mpr unique.partitionId

section Schedule
variable (sha256 : Digest) (schedule : Nat → DbtSources)
  (replay : ∀ run, SameSources (schedule run) (schedule 0))
  (unique : UniqueTests (dbtRun sha256 none (schedule 0)))
include replay unique

theorem content_kept (runs : Nat) :
    SameContent (warehouseAfter sha256 schedule runs) (dbtRun sha256 none (schedule 0)) := by
  induction runs with
  | zero => exact ⟨.refl _ _, .refl _ _, .refl _ _, .refl _ _, .refl _ _, .refl _ _⟩
  | succ run ih => exact dbtRun_same sha256 (replay (run + 1)) unique ih

/-- Where the `unique` tests pass on the first run, no number of replays changes the content of a model or
makes a test fail. -/
theorem replays_keep_content (runs : Nat) :
    SameContent (warehouseAfter sha256 schedule runs) (dbtRun sha256 none (schedule 0)) ∧
      UniqueTests (warehouseAfter sha256 schedule runs) := by
  have kept := content_kept sha256 schedule replay unique runs
  exact ⟨kept, uniqueTests_same kept unique⟩

end Schedule

def stakedOnce (run : Nat) : DbtSources :=
  { economicActions := [⟨settledStake, toString run⟩]
    tokenMovements := []
    actionMovementEdges :=
      [{ edgeId := "m1"
         actionId := some "a1"
         movementId := none
         allocatedAmount := 0
         status := "unmatched"
         method := none
         reason := ""
         chainId := settledStake.chainId
         blockNumber := settledStake.blockNumber
         txHash := settledStake.txHash
         runPartitionId := toString run }]
    ledgerEntries := [entryRow "e1" settledStake.blockNumber (toString run)]
    canonicalBlocks := blocksAt [settledStake.blockNumber] (List.nodup_singleton _) }

theorem replays_keep_content_staked :
    SameContent (warehouseAfter id stakedOnce 2) (dbtRun id none (stakedOnce 0)) ∧
      UniqueTests (warehouseAfter id stakedOnce 2) :=
  replays_keep_content id stakedOnce
    (fun _ => ⟨.refl _ _, .refl _ _, .refl _ _, .refl _ _, .refl _ _⟩)
    ⟨by decide +kernel, by decide +kernel, by decide +kernel, by decide +kernel, by decide +kernel,
      by decide +kernel⟩ 2

end EconomicLedger.Marts
