import EconomicLedger.Marts.FlowRows
import EconomicLedger.Marts.Verdicts
import EconomicLedger.Matching.Expectation

/-!
# The status on a flow row

`staking_link_flows` shows the verdict on the transaction in every row of it. An action's row tells
what the action's own edges tell when the rest of the transaction does not decide the verdict.
-/

namespace EconomicLedger.Marts
open Model Text Relational Matching

/-! ## The verdict by the actions -/

section Verdict
variable (actions : List EconomicAction) (movements : List TokenMovement)

def TxFails : Prop :=
  (∃ action ∈ actions, actionStatus action movements = .unmatched ∨
    actionStatus action movements = .ambiguous) ∨ LeftOver actions movements

def TxPasses : Prop :=
  (∀ action ∈ actions, actionStatus action movements = .exact ∨
    actionStatus action movements = .notExpected) ∧ ¬LeftOver actions movements

variable (sha256 : Digest)

theorem txFails_iff : 3 ≤ severity (matchTxEconomics sha256 actions movements).overallStatus ↔
    TxFails actions movements := by
  have worst := matchTxEconomics_worst sha256 actions movements
  have listed := txEdges_status sha256 actions movements
  simp only [← leftOver_iff, List.mem_map] at worst listed
  rw [(matchTxEconomics_fields sha256 actions movements).1] at worst
  rw [← fails_iff]
  constructor
  · intro bad
    rcases worst.reached with reached | ⟨-, exact⟩
    · rcases (listed _).mp reached with ⟨action, isAction, status⟩ | ⟨-, left⟩
      · have possible := actionStatus_ne_unexpected action movements
        rw [← status] at bad
        simp only [List.mem_cons, List.not_mem_nil, or_false] at bad
        exact Or.inl ⟨action, isAction, by tauto⟩
      · exact Or.inr left
    · rw [exact] at bad
      exact absurd bad (by decide)
  · intro fails
    have some : ∃ edge ∈ txEdges sha256 actions movements,
        edge.status ∈ [Status.unmatched, .unexpected, .ambiguous] := by
      rcases fails with ⟨action, isAction, unmatched | ambiguous⟩ | left
      · obtain ⟨edge, member, status⟩ := (listed .unmatched).mpr (Or.inl ⟨action, isAction, unmatched⟩)
        exact ⟨edge, member, by simp [status]⟩
      · obtain ⟨edge, member, status⟩ := (listed .ambiguous).mpr (Or.inl ⟨action, isAction, ambiguous⟩)
        exact ⟨edge, member, by simp [status]⟩
      · obtain ⟨edge, member, status⟩ := (listed .unexpected).mpr (Or.inr ⟨rfl, left⟩)
        exact ⟨edge, member, by simp [status]⟩
    obtain ⟨edge, member, failed⟩ := some
    exact (fails_iff _).mpr (((fails_iff _).mp failed).trans (worst.bound edge member))

theorem txPasses_iff :
    ((matchTxEconomics sha256 actions movements).overallStatus = .exact ∨
      (matchTxEconomics sha256 actions movements).overallStatus = .notExpected) ↔
      TxPasses actions movements := by
  have worst := matchTxEconomics_worst sha256 actions movements
  have listed := txEdges_status sha256 actions movements
  simp only [← leftOver_iff, List.mem_map] at worst listed
  rw [worst.passes_iff, (matchTxEconomics_fields sha256 actions movements).1]
  constructor
  · intro passes
    constructor
    · intro action isAction
      obtain ⟨edge, member, status⟩ := (listed _).mpr (Or.inl ⟨action, isAction, rfl⟩)
      exact status ▸ passes edge member
    · intro left
      obtain ⟨edge, member, status⟩ := (listed .unexpected).mpr (Or.inr ⟨rfl, left⟩)
      rcases passes edge member with exact | notExpected
      · cases status.symm.trans exact
      · cases status.symm.trans notExpected
  · rintro ⟨each, none⟩ edge member
    rcases (listed edge.status).mp ⟨edge, member, rfl⟩ with ⟨action, isAction, status⟩ | ⟨-, left⟩
    · exact status ▸ each action isAction
    · exact absurd left none

end Verdict

/-! ## The rows of an action -/

theorem stakingLinkFlows_flatMap (economicActions : List EconomicActionRow) (blocks : CanonicalBlocks)
    (recon : List ActionMovementReconRow) :
    stakingLinkFlows economicActions blocks recon =
      economicActions.flatMap fun a => stakingLinkFlows [a] blocks recon := by
  induction economicActions with
  | nil => rfl
  | cons a rest ih =>
      rw [List.flatMap_cons, ← ih]
      simp only [stakingLinkFlows, intEconomicActions, innerJoin, leftJoin, List.flatMap_cons,
        List.flatMap_nil, List.append_nil, List.map_append, List.flatMap_append, List.filterMap_append]

theorem row_iff_selected (a : EconomicActionRow) (blocks : CanonicalBlocks) (r : ActionMovementReconRow) :
    (∃ row, row ∈ stakingLinkFlows [a] blocks [r]) ↔ selected blocks a.action = true := by
  have ids := stakingLinkFlows_eventIds [a] blocks [r] (by simp)
  constructor
  · rintro ⟨row, member⟩
    have shown := List.mem_map_of_mem (f := StakingLinkFlowRow.eventId) member
    rw [ids] at shown
    obtain ⟨action, kept, -⟩ := List.mem_map.mp shown
    obtain ⟨inside, chosen⟩ := List.mem_filter.mp kept
    rw [List.map_singleton, List.mem_singleton] at inside
    exact inside ▸ chosen
  · intro chosen
    rw [List.map_singleton, List.filter_cons_of_pos chosen] at ids
    obtain ⟨row, member, -⟩ := List.mem_map.mp (ids ▸ List.mem_cons_self :
      a.action.decodedEventId ∈ (stakingLinkFlows [a] blocks [r]).map StakingLinkFlowRow.eventId)
    exact ⟨row, member⟩

def shownStatus (action : EconomicAction) (r : ActionMovementReconRow) : String :=
  if action.txHash = r.txHash then flowReconciliationStatus (some r) else "unmatched"

theorem row_status (a : EconomicActionRow) (blocks : CanonicalBlocks) (r : ActionMovementReconRow)
    (row : StakingLinkFlowRow) (member : row ∈ stakingLinkFlows [a] blocks [r]) :
    row.reconciliationStatus = shownStatus a.action r := by
  obtain ⟨joined, isJoined, made⟩ := List.mem_filterMap.mp member
  obtain ⟨paired, here⟩ := (mem_leftJoin onTxHash).mp isJoined
  obtain ⟨⟨low, cb⟩, recon⟩ := joined
  have own : low.action.txHash = a.action.txHash := by
    have inside := ((mem_innerJoin onCanonicalBlock).mp paired).1
    rw [intEconomicActions_eq] at inside
    obtain ⟨a', kept, rfl⟩ := List.mem_map.mp inside
    rw [List.mem_singleton.mp (List.mem_filter.mp kept).1]
    rfl
  have status : row.reconciliationStatus = flowReconciliationStatus recon := by
    obtain ⟨wallet, -, rfl⟩ := Option.map_eq_some_iff.mp made
    rfl
  rw [status, shownStatus, ← own]
  by_cases same : low.action.txHash = r.txHash
  · rw [if_pos same]
    simp [leftJoin, onTxHash, same] at here
    rw [here]
  · rw [if_neg same]
    simp [leftJoin, onTxHash, same] at here
    rw [here]
    rfl

theorem rows_iff (a : EconomicActionRow) (blocks : CanonicalBlocks) (r : ActionMovementReconRow)
    (p : String → Prop) :
    (∀ row ∈ stakingLinkFlows [a] blocks [r], p row.reconciliationStatus) ↔
      (selected blocks a.action = true → p (shownStatus a.action r)) := by
  rw [← row_iff_selected a blocks r]
  constructor
  · rintro each ⟨row, member⟩
    exact row_status a blocks r row member ▸ each row member
  · intro shown row member
    exact (row_status a blocks r row member).symm ▸ shown ⟨row, member⟩

/-! ## The status of the action itself -/

/-- `exact` and `unmatched` are said of an action's own edges. -/
structure OwnStatus (edges : List ActionMovementMatch) (action : EconomicAction) (status : String) :
    Prop where
  exact : status = "exact" → ∀ edge ∈ edges, edge.actionId = some action.actionId → edge.status = .exact
  unmatched : status = "unmatched" →
    ∃ edge ∈ edges, edge.actionId = some action.actionId ∧ edge.status = .unmatched

/-- The rest of the transaction does not decide what is shown of the action. -/
structure OwnVerdict (actions : List EconomicAction) (movements : List TokenMovement)
    (action : EconomicAction) : Prop where
  exact : action.txHash = headTx actions movements → TxPasses actions movements →
    ∀ other ∈ actions, other.actionId = action.actionId → other.kind ∉ notExpectedKinds
  unmatched : action.txHash ≠ headTx actions movements ∨ TxFails actions movements →
    ∃ other ∈ actions, other.actionId = action.actionId ∧ actionStatus other movements = .unmatched

section Own
variable (sha256 : Digest) (runPartitionId : String) (actions : List EconomicAction)
  (movements : List TokenMovement)

theorem loadedRow_txHash (nonempty : actions ≠ []) :
    (loadedRow runPartitionId (matchTxEconomics sha256 actions movements)).txHash =
      headTx actions movements :=
  matchTxEconomics_txHash sha256 actions movements (Or.inl nonempty)

theorem shownStatus_exact_iff (nonempty : actions ≠ []) (action : EconomicAction) :
    shownStatus action (loadedRow runPartitionId (matchTxEconomics sha256 actions movements)) = "exact" ↔
      action.txHash = headTx actions movements ∧ TxPasses actions movements := by
  rw [← txPasses_iff actions movements sha256, shownStatus,
    loadedRow_txHash sha256 runPartitionId actions movements nonempty]
  by_cases same : action.txHash = headTx actions movements
  · rw [if_pos same, flowReconciliationStatus, Option.map_some, loadedRow_verdict]
    cases (matchTxEconomics sha256 actions movements).overallStatus <;> simp [sqlVerdict, same]
  · simp [same]

theorem shownStatus_unmatched_iff (nonempty : actions ≠ []) (action : EconomicAction) :
    shownStatus action (loadedRow runPartitionId (matchTxEconomics sha256 actions movements)) =
        "unmatched" ↔
      action.txHash ≠ headTx actions movements ∨ TxFails actions movements := by
  rw [← txFails_iff actions movements sha256, shownStatus,
    loadedRow_txHash sha256 runPartitionId actions movements nonempty]
  by_cases same : action.txHash = headTx actions movements
  · rw [if_pos same, flowReconciliationStatus, Option.map_some, loadedRow_verdict]
    cases (matchTxEconomics sha256 actions movements).overallStatus <;>
      simp [sqlVerdict, severity, same]
  · simp [same]

theorem own_edges_iff (actionId : String) (p : Status → Prop) :
    (∀ edge ∈ txEdges sha256 actions movements, edge.actionId = some actionId → p edge.status) ↔
      ∀ other ∈ actions, other.actionId = actionId → p (actionStatus other movements) := by
  constructor
  · rintro each other isAction rfl
    obtain ⟨edge, member, owned, status⟩ := exists_edge_action sha256 actions movements other isAction
    exact status ▸ each edge member owned
  · intro each edge member owned
    obtain ⟨other, isAction, same, status⟩ := (exists_status_iff sha256 actions movements actionId
      edge.status).mp ⟨edge, member, owned, rfl⟩
    exact status ▸ each other isAction same

theorem ownStatus_iff (nonempty : actions ≠ []) (action : EconomicAction) :
    OwnStatus (matchTxEconomics sha256 actions movements).edges action
        (shownStatus action (loadedRow runPartitionId (matchTxEconomics sha256 actions movements))) ↔
      OwnVerdict actions movements action := by
  have exact := shownStatus_exact_iff sha256 runPartitionId actions movements nonempty action
  have unmatched := shownStatus_unmatched_iff sha256 runPartitionId actions movements nonempty action
  have kinds (passes : TxPasses actions movements) (other : EconomicAction) (isAction : other ∈ actions) :
      actionStatus other movements = .exact ↔ other.kind ∉ notExpectedKinds := by
    rw [← actionStatus_notExpected_iff other movements]
    rcases passes.1 other isAction with status | status <;> simp [status]
  have edges : (∀ edge ∈ (matchTxEconomics sha256 actions movements).edges,
      edge.actionId = some action.actionId → edge.status = .exact) ↔
      ∀ other ∈ actions, other.actionId = action.actionId → actionStatus other movements = .exact := by
    rw [(matchTxEconomics_fields sha256 actions movements).1]
    exact own_edges_iff sha256 actions movements action.actionId (· = .exact)
  constructor
  · rintro ⟨clean, missing⟩
    rw [exact, edges] at clean
    rw [unmatched, (matchTxEconomics_fields sha256 actions movements).1, exists_status_iff] at missing
    refine ⟨?_, missing⟩
    intro same passes other isAction own
    exact (kinds passes other isAction).mp (clean ⟨same, passes⟩ other isAction own)
  · rintro ⟨clean, missing⟩
    constructor
    · rw [exact, edges]
      rintro ⟨same, passes⟩ other isAction own
      exact (kinds passes other isAction).mpr (clean same passes other isAction own)
    · rw [unmatched, (matchTxEconomics_fields sha256 actions movements).1, exists_status_iff]
      exact missing

end Own

/-- The rows of the mart are the rows of its actions, and they show the actions' own statuses exactly
when no row is decided by the rest of the transaction. -/
theorem flow_status_iff (sha256 : Digest) (runPartitionId : String)
    (economicActions : List EconomicActionRow) (movements : List TokenMovement) (blocks : CanonicalBlocks) :
    let actions := economicActions.map EconomicActionRow.action
    let report := matchTxEconomics sha256 actions movements
    let flows := fun rows =>
      stakingLinkFlows rows blocks (intActionMovementRecon (loadEdges runPartitionId report))
    flows economicActions = economicActions.flatMap (fun a => flows [a]) ∧
      ((∀ a ∈ economicActions, ∀ row ∈ flows [a],
          OwnStatus report.edges a.action row.reconciliationStatus) ↔
        ∀ a ∈ economicActions, selected blocks a.action = true →
          OwnVerdict actions movements a.action) := by
  intro actions report flows
  refine ⟨stakingLinkFlows_flatMap _ _ _, forall₂_congr fun a member => ?_⟩
  have isAction : a.action ∈ actions := List.mem_map_of_mem member
  have nonempty : actions ≠ [] := List.ne_nil_of_mem isAction
  have someEdge : report.edges ≠ [] := by
    obtain ⟨edge, inside, -⟩ := exists_edge_action sha256 actions movements a.action isAction
    rw [(matchTxEconomics_fields sha256 actions movements).1]
    exact List.ne_nil_of_mem inside
  have loaded : flows [a] = stakingLinkFlows [a] blocks [loadedRow runPartitionId report] :=
    congrArg (stakingLinkFlows [a] blocks) (intActionMovementRecon_loadEdges runPartitionId report someEdge)
  rw [loaded, rows_iff a blocks _ (OwnStatus report.edges a.action),
    ownStatus_iff sha256 runPartitionId actions movements nonempty]

/-! ### A settled stake beside a movement nobody expects -/

def settledStake : EconomicAction := { stakeOf "a1" 5 with wallet := some "0xaa" }

theorem settled_stake_shown_unmatched :
    let report := matchTxEconomics id [settledStake] [movementOf "m1" 5, movementOf "m2" 7]
    (stakingLinkFlows [⟨settledStake, "run"⟩] blockHundred
      (intActionMovementRecon (loadEdges "run" report))).map StakingLinkFlowRow.reconciliationStatus =
        ["unmatched"] ∧
    (report.edges.filter (·.actionId = some "a1")).map ActionMovementMatch.status = [.exact] := by
  decide +kernel

end EconomicLedger.Marts
