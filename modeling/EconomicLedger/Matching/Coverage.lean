import EconomicLedger.Matching.OrderIndependence
import EconomicLedger.Model.Checks
import Mathlib.Algebra.Order.Ring.Rat
import Mathlib.Tactic.FieldSimp

/-!
# What reconciliation covers and counts

The edges of a transaction name all its actions and movements: an action through an edge of its own,
a movement through an action or, when no action names it, through an unexpected edge. The counters of
a transaction and of a partition say how many edges of each status there are.
-/

namespace EconomicLedger.Matching
open Model Text

/-! ## The worst status -/

def severity : Status → Nat
  | .unmatched => 5
  | .unexpected => 4
  | .ambiguous => 3
  | .partialMatch => 2
  | .notExpected => 1
  | .exact => 0

/-- No edge is worse, and some edge is as bad; no edges are exact. -/
structure WorstStatus (edges : List ActionMovementMatch) (worst : Status) : Prop where
  bound : ∀ edge ∈ edges, severity edge.status ≤ severity worst
  reached : (∃ edge ∈ edges, edge.status = worst) ∨ edges = [] ∧ worst = .exact

theorem statusPriority_sorted : statusPriority.Pairwise fun s t => severity t ≤ severity s := by
  decide

theorem mem_statusPriority (status : Status) : status ∈ statusPriority := by
  cases status <;> decide

theorem rollupStatus_worst (edges : List ActionMovementMatch) :
    WorstStatus edges (rollupStatus edges) := by
  unfold rollupStatus
  cases found : statusPriority.find? fun s => s ∈ edges.map ActionMovementMatch.status with
  | none =>
      have absent := List.find?_eq_none.mp found
      have empty : edges = [] := by
        cases edges with
        | nil => rfl
        | cons edge rest => exact absurd (by simp) (absent edge.status (mem_statusPriority _))
      subst empty
      exact ⟨by simp, Or.inr ⟨rfl, rfl⟩⟩
  | some worst =>
      obtain ⟨present, before, after, split, better⟩ := List.find?_eq_some_iff_append.mp found
      have sorted := statusPriority_sorted
      rw [split, List.pairwise_append, List.pairwise_cons] at sorted
      refine ⟨?_, Or.inl ?_⟩
      · intro edge member
        have listed := mem_statusPriority edge.status
        rw [split, List.mem_append, List.mem_cons] at listed
        rcases listed with earlier | same | later
        · have none := better edge.status earlier
          simp only [Bool.not_eq_true', decide_eq_false_iff_not] at none
          exact absurd (List.mem_map_of_mem member) none
        · rw [Option.getD_some, same]
        · exact sorted.2.1.1 edge.status later
      · simpa using present

theorem severity_le_one_iff (status : Status) :
    severity status ≤ 1 ↔ status = .exact ∨ status = .notExpected := by
  cases status <;> decide

theorem WorstStatus.passes_iff {edges : List ActionMovementMatch} {worst : Status}
    (given : WorstStatus edges worst) :
    (worst = .exact ∨ worst = .notExpected) ↔
      ∀ edge ∈ edges, edge.status = .exact ∨ edge.status = .notExpected := by
  simp only [← severity_le_one_iff]
  constructor
  · intro passes edge member
    exact (given.bound edge member).trans passes
  · intro all
    rcases given.reached with ⟨edge, member, rfl⟩ | ⟨-, rfl⟩
    · exact all edge member
    · decide

/-! ## The edges of a transaction -/

/-- An edge of an action names the movement. -/
def NamedByAction (edges : List ActionMovementMatch) (m : TokenMovement) : Prop :=
  ∃ edge ∈ edges, edge.actionId ≠ none ∧ edge.movementId = some m.movementId

instance (edges : List ActionMovementMatch) (m : TokenMovement) : Decidable (NamedByAction edges m) :=
  inferInstanceAs (Decidable (∃ edge ∈ edges, _))

structure Covers (actions : List EconomicAction) (movements : List TokenMovement)
    (report : TxReconciliation) : Prop where
  everyAction : ∀ action ∈ actions, ∃ edge ∈ report.edges, edge.actionId = some action.actionId
  everyMovement : ∀ m ∈ movements, ∃ edge ∈ report.edges, edge.movementId = some m.movementId
  unexpected : (report.edges.filter (·.status = .unexpected)).map (fun e => (e.actionId, e.movementId)) =
    (movements.filter fun m => ¬ NamedByAction report.edges m).map fun m => (none, some m.movementId)
  unmatchedActions : report.unmatchedActions = actions.countP fun action =>
    ∃ edge ∈ report.edges, edge.actionId = some action.actionId ∧ edge.status = .unmatched
  unexpectedMovements :
    report.unexpectedMovements = (report.edges.filter (·.status = .unexpected)).length
  worst : WorstStatus report.edges report.overallStatus

variable (sha256 : Digest)

theorem mem_actionEdges (actions : List EconomicAction) (movements : List TokenMovement)
    (edge : ActionMovementMatch) (member : edge ∈ actionEdges sha256 actions movements) :
    ∃ action ∈ actions, edge.actionId = some action.actionId ∧
      edge.status = actionStatus action movements := by
  obtain ⟨action, isAction, own⟩ := List.mem_flatMap.mp member
  have matched := matchActionToMovements_matched sha256 action movements
  exact ⟨action, isAction, matched.owned edge own, matched.status edge own⟩

theorem filter_unexpected (actions : List EconomicAction) (movements : List TokenMovement) :
    (txEdges sha256 actions movements).filter (·.status = .unexpected) =
      (unmatchedMovements sha256 actions movements).map fun (m, i) => unexpectedEdge sha256 m i := by
  have others : (actionEdges sha256 actions movements).filter (·.status = .unexpected) = [] := by
    rw [List.filter_eq_nil_iff]
    intro edge member
    obtain ⟨action, -, -, status⟩ := mem_actionEdges sha256 actions movements edge member
    simpa [status] using actionStatus_ne_unexpected action movements
  have all : ∀ edge ∈ (unmatchedMovements sha256 actions movements).map
      (fun (m, i) => unexpectedEdge sha256 m i), decide (edge.status = .unexpected) = true := by
    intro edge member
    obtain ⟨⟨m, i⟩, -, rfl⟩ := List.mem_map.mp member
    rfl
  rw [txEdges, List.filter_append, others, List.nil_append, List.filter_eq_self.mpr all]

theorem namedByAction_iff (actions : List EconomicAction) (movements : List TokenMovement)
    (m : TokenMovement) : NamedByAction (txEdges sha256 actions movements) m ↔
      m.movementId ∈ (actionEdges sha256 actions movements).filterMap ActionMovementMatch.movementId := by
  rw [List.mem_filterMap]
  constructor
  · rintro ⟨edge, member, ofAction, named⟩
    rcases List.mem_append.mp member with own | other
    · exact ⟨edge, own, named⟩
    · obtain ⟨⟨m', i⟩, -, rfl⟩ := List.mem_map.mp other
      exact absurd rfl ofAction
  · rintro ⟨edge, member, named⟩
    obtain ⟨action, -, owned, -⟩ := mem_actionEdges sha256 actions movements edge member
    exact ⟨edge, List.mem_append_left _ member, by simp [owned], named⟩

theorem unmatchedMovements_map_fst (actions : List EconomicAction) (movements : List TokenMovement)
    (oneTx : OneTx actions movements) :
    (unmatchedMovements sha256 actions movements).map Prod.fst =
      movements.filter fun m => ¬ NamedByAction (txEdges sha256 actions movements) m := by
  rw [unmatchedMovements_fst sha256 actions movements oneTx]
  exact List.filter_congr fun m _ => by simp only [namedByAction_iff]

theorem exists_edge_action (actions : List EconomicAction) (movements : List TokenMovement)
    (action : EconomicAction) (isAction : action ∈ actions) :
    ∃ edge ∈ txEdges sha256 actions movements,
      edge.actionId = some action.actionId ∧ edge.status = actionStatus action movements := by
  obtain ⟨edge, own⟩ := List.exists_mem_of_ne_nil _
    (matchActionToMovements_ne_nil sha256 action movements)
  have matched := matchActionToMovements_matched sha256 action movements
  exact ⟨edge, List.mem_append_left _ (List.mem_flatMap.mpr ⟨action, isAction, own⟩),
    matched.owned edge own, matched.status edge own⟩

theorem exists_edge_movement (actions : List EconomicAction) (movements : List TokenMovement)
    (oneTx : OneTx actions movements) (m : TokenMovement) (member : m ∈ movements) :
    ∃ edge ∈ txEdges sha256 actions movements, edge.movementId = some m.movementId := by
  by_cases named : NamedByAction (txEdges sha256 actions movements) m
  · obtain ⟨edge, inside, -, names⟩ := named
    exact ⟨edge, inside, names⟩
  · have left : m ∈ (unmatchedMovements sha256 actions movements).map Prod.fst := by
      rw [unmatchedMovements_map_fst sha256 actions movements oneTx, List.mem_filter]
      exact ⟨member, by simpa using named⟩
    obtain ⟨⟨m, i⟩, inside, rfl⟩ := List.mem_map.mp left
    exact ⟨unexpectedEdge sha256 m i, List.mem_append_right _ (List.mem_map.mpr ⟨(m, i), inside, rfl⟩), rfl⟩

theorem exists_status_iff (actions : List EconomicAction) (movements : List TokenMovement)
    (actionId : String) (status : Status) :
    (∃ edge ∈ txEdges sha256 actions movements, edge.actionId = some actionId ∧ edge.status = status) ↔
      ∃ action ∈ actions, action.actionId = actionId ∧ actionStatus action movements = status := by
  constructor
  · rintro ⟨edge, member, owned, rfl⟩
    rcases List.mem_append.mp member with own | other
    · obtain ⟨action, isAction, owned', status⟩ := mem_actionEdges sha256 actions movements edge own
      exact ⟨action, isAction, Option.some.inj (owned'.symm.trans owned), status.symm⟩
    · obtain ⟨⟨m, i⟩, -, rfl⟩ := List.mem_map.mp other
      cases owned
  · rintro ⟨action, isAction, rfl, rfl⟩
    exact exists_edge_action sha256 actions movements action isAction

theorem unmatched_iff (actions : List EconomicAction) (movements : List TokenMovement)
    (distinct : (actions.map EconomicAction.actionId).Nodup) (action : EconomicAction)
    (isAction : action ∈ actions) :
    actionStatus action movements = .unmatched ↔ ∃ edge ∈ txEdges sha256 actions movements,
      edge.actionId = some action.actionId ∧ edge.status = .unmatched := by
  rw [exists_status_iff]
  constructor
  · intro status
    exact ⟨action, isAction, rfl, status⟩
  · rintro ⟨action', isAction', same, status⟩
    rwa [List.inj_on_of_nodup_map distinct isAction isAction' same.symm]

/-- A movement of the transaction that no action takes. -/
def LeftOver (actions : List EconomicAction) (movements : List TokenMovement) : Prop :=
  ∃ m ∈ movements, lower m.txHash = headTx actions movements ∧
    ∀ action ∈ actions, ∀ m', Takes action movements m' → m'.movementId ≠ m.movementId

theorem leftOver_iff (actions : List EconomicAction) (movements : List TokenMovement) :
    LeftOver actions movements ↔ 0 < (unmatchedMovements sha256 actions movements).length := by
  rw [← List.length_map (f := Prod.fst), unmatchedMovements_kept, List.length_pos_iff, ne_eq,
    List.filter_eq_nil_iff]
  simp only [Bool.and_eq_true, decide_eq_true_eq, Bool.not_eq_true', decide_eq_false_iff_not,
    matchedId_iff, not_forall, not_not, exists_prop, not_exists, not_and, LeftOver, ne_eq]

theorem matchTxEconomics_covers (actions : List EconomicAction) (movements : List TokenMovement)
    (oneTx : OneTx actions movements) (distinct : (actions.map EconomicAction.actionId).Nodup) :
    Covers actions movements (matchTxEconomics sha256 actions movements) := by
  obtain ⟨edges, unmatched, unexpected, overall⟩ := matchTxEconomics_fields sha256 actions movements
  constructor
  · intro action isAction
    obtain ⟨edge, member, owned, -⟩ := exists_edge_action sha256 actions movements action isAction
    exact ⟨edge, edges ▸ member, owned⟩
  · rw [edges]
    exact exists_edge_movement sha256 actions movements oneTx
  · rw [edges, filter_unexpected, ← unmatchedMovements_map_fst sha256 actions movements oneTx,
      List.map_map, List.map_map]
    rfl
  · rw [unmatched, txEdges_unmatched, edges]
    apply List.countP_congr
    intro action isAction
    simp only [decide_eq_true_eq]
    exact unmatched_iff sha256 actions movements distinct action isAction
  · rw [unexpected, edges, filter_unexpected, List.length_map]
  · rw [edges, overall]
    exact rollupStatus_worst _

/-! ## Counters of a partition -/

theorem mem_statuses (status : Status) : status ∈ Status.all := by
  cases status <;> decide

/-- Everything has one of the six statuses. -/
theorem sum_countP_status {α : Type} (statusOf : α → Status) (items : List α) :
    (Status.all.map fun status => items.countP (statusOf · = status)).sum = items.length := by
  induction items with
  | nil => rfl
  | cons item rest ih =>
      have one : (Status.all.map fun status => if statusOf item = status then 1 else 0).sum = 1 := by
        cases statusOf item <;> rfl
      simp only [List.countP_cons, decide_eq_true_eq, List.sum_map_add, ih, one, List.length_cons]

theorem foldl_count (recons : List TxReconciliation) (n : Nat) :
    recons.foldl (fun o _ => some (Option.getD o 0 + 1)) (some n) = some (n + recons.length) := by
  induction recons generalizing n with
  | nil => rfl
  | cons recon rest ih =>
      rw [List.foldl_cons, Option.getD_some, ih, List.length_cons]
      congr 1
      omega

theorem countStatuses_get? (recons : List TxReconciliation) (status : Status) :
    (countStatuses recons).get? status = some (recons.countP (·.overallStatus = status)) := by
  have zero : (Dict.ofList (Status.all.map fun status => (status, 0))).get? status = some 0 := by
    cases status <;> rfl
  rw [countStatuses, Dict.get?_gather, zero, foldl_count, Nat.zero_add, List.countP_eq_length_filter]

theorem countStatuses_values (recons : List TxReconciliation) :
    (countStatuses recons).values =
      Status.all.map fun status => recons.countP (·.overallStatus = status) := by
  have start : (Dict.ofList (Status.all.map fun status => (status, 0))).keys = Status.all := rfl
  have keys : (countStatuses recons).keys = Status.all := by
    have none : recons.filter (fun recon => recon.overallStatus ∉ Status.all) = [] := by
      rw [List.filter_eq_nil_iff]
      intro recon _
      simp [mem_statuses]
    rw [countStatuses, Dict.keys_gather, start, none]
    rfl
  apply List.map_injective_iff.mpr (Option.some_injective _)
  rw [Dict.values_eq, keys, List.map_map]
  exact List.map_congr_left fun status _ => countStatuses_get? recons status

theorem sum_countStatuses (recons : List TxReconciliation) :
    (countStatuses recons).values.sum = recons.length := by
  rw [countStatuses_values, sum_countP_status]

theorem passCount_eq_length_iff (recons : List TxReconciliation) :
    recons.countP (·.overallStatus = .exact) + recons.countP (·.overallStatus = .notExpected) =
      recons.length ↔
      ∀ recon ∈ recons, recon.overallStatus = .exact ∨ recon.overallStatus = .notExpected := by
  have both : recons.countP (·.overallStatus = .exact) + recons.countP (·.overallStatus = .notExpected) =
      recons.countP fun recon => recon.overallStatus = .exact ∨ recon.overallStatus = .notExpected := by
    induction recons with
    | nil => rfl
    | cons recon rest ih =>
        simp only [List.countP_cons, ← ih]
        cases recon.overallStatus <;> simp <;> omega
  rw [both, List.countP_eq_length]
  simp only [decide_eq_true_eq]

theorem passRate_one_iff (recons : List TxReconciliation) :
    passRate (countStatuses recons) recons.length = 1 ↔
      ∀ recon ∈ recons, recon.overallStatus = .exact ∨ recon.overallStatus = .notExpected := by
  rw [← passCount_eq_length_iff, passRate, countStatuses_get?, countStatuses_get?]
  simp only [Option.getD_some]
  by_cases nonempty : 0 < recons.length
  · have nonzero : (recons.length : ℚ) ≠ 0 := by
      exact_mod_cast nonempty.ne'
    rw [if_pos nonempty, div_eq_one_iff_eq nonzero]
    exact_mod_cast Iff.rfl
  · have none : recons = [] := by simpa using nonempty
    subst none
    simp

/-! ## Partitions -/

variable (actionsByTx : Option (Dict String (List EconomicAction)))
  (movementsByTx : Option (Dict String (List TokenMovement)))

def actionsUnder (txHash : String) : List EconomicAction :=
  ((actionsByTx.getD Dict.empty).get? txHash).getD []

def movementsUnder (txHash : String) : List TokenMovement :=
  ((movementsByTx.getD Dict.empty).get? txHash).getD []

/-- Every item stands under its own transaction. -/
structure KeyedByTx : Prop where
  actions : ∀ txHash, ∀ action ∈ actionsUnder actionsByTx txHash, lower action.txHash = lower txHash
  movements : ∀ txHash, ∀ m ∈ movementsUnder movementsByTx txHash, lower m.txHash = lower txHash

/-- The report of the items under a transaction, whose hash it has if there are any. -/
def ReconOf (txHash : String) (recon : TxReconciliation) : Prop :=
  recon = matchTxEconomics sha256 (actionsUnder actionsByTx txHash) (movementsUnder movementsByTx txHash) ∧
    (actionsUnder actionsByTx txHash ≠ [] ∨ movementsUnder movementsByTx txHash ≠ [] →
      recon.txHash = lower txHash)

structure PartitionCovers (report : PartitionReconciliation) : Prop where
  everyTx : ∃ txHashes : List String, txHashes.Nodup ∧
    (∀ txHash, txHash ∈ txHashes ↔ txHash ∈ (actionsByTx.getD Dict.empty).keys ∨
      txHash ∈ (movementsByTx.getD Dict.empty).keys) ∧
    List.Forall₂ (ReconOf sha256 actionsByTx movementsByTx) txHashes report.txRecons
  counted : report.countsByStatus.values.sum = report.txRecons.length
  passes : report.passRate = 1 ↔ ∀ recon ∈ report.txRecons, ∀ edge ∈ recon.edges,
    edge.status = .exact ∨ edge.status = .notExpected
  checked : (checkNoUnmatchedEconomicActions report).passed ↔
    ∀ recon ∈ report.txRecons, ∀ edge ∈ recon.edges, edge.status ≠ .unmatched

theorem allTxHashes_perm (actionsByTx : Dict String (List EconomicAction))
    (movementsByTx : Dict String (List TokenMovement)) :
    (allTxHashes actionsByTx movementsByTx).Perm
      (actionsByTx.keys ++ movementsByTx.keys.filter (· ∉ actionsByTx.keys)) :=
  List.perm_insertionSort _ _

theorem allTxHashes_nodup (actionsByTx : Dict String (List EconomicAction))
    (movementsByTx : Dict String (List TokenMovement)) :
    (allTxHashes actionsByTx movementsByTx).Nodup := by
  rw [(allTxHashes_perm actionsByTx movementsByTx).nodup_iff]
  refine List.Nodup.append actionsByTx.keys_nodup (movementsByTx.keys_nodup.filter _) ?_
  intro txHash here there
  simpa [here] using (List.mem_filter.mp there).2

theorem mem_allTxHashes (actionsByTx : Dict String (List EconomicAction))
    (movementsByTx : Dict String (List TokenMovement)) (txHash : String) :
    txHash ∈ allTxHashes actionsByTx movementsByTx ↔
      txHash ∈ actionsByTx.keys ∨ txHash ∈ movementsByTx.keys := by
  rw [(allTxHashes_perm actionsByTx movementsByTx).mem_iff, List.mem_append, List.mem_filter,
    decide_eq_true_eq]
  tauto

theorem matchTxEconomics_txHash (actions : List EconomicAction) (movements : List TokenMovement)
    (nonempty : actions ≠ [] ∨ movements ≠ []) :
    (matchTxEconomics sha256 actions movements).txHash = headTx actions movements := by
  cases actions with
  | nil =>
      cases movements with
      | nil => simp at nonempty
      | cons m rest => rfl
  | cons action rest => rfl

theorem headTx_keyed (txHash : String) (actions : List EconomicAction) (movements : List TokenMovement)
    (own : ∀ action ∈ actions, lower action.txHash = lower txHash)
    (moved : ∀ m ∈ movements, lower m.txHash = lower txHash)
    (nonempty : actions ≠ [] ∨ movements ≠ []) : headTx actions movements = lower txHash := by
  cases actions with
  | nil =>
      cases movements with
      | nil => simp at nonempty
      | cons m rest => exact moved m List.mem_cons_self
  | cons action rest => exact own action List.mem_cons_self

theorem matchTxEconomics_unmatched (actions : List EconomicAction) (movements : List TokenMovement) :
    let report := matchTxEconomics sha256 actions movements
    report.unmatchedActions = 0 ↔ ∀ edge ∈ report.edges, edge.status ≠ .unmatched := by
  obtain ⟨edges, unmatched, -, -⟩ := matchTxEconomics_fields sha256 actions movements
  simp only [edges, unmatched, List.length_eq_zero_iff, List.filter_eq_nil_iff, decide_eq_true_eq,
    ne_eq]

theorem matchTxEconomics_worst (actions : List EconomicAction) (movements : List TokenMovement) :
    let report := matchTxEconomics sha256 actions movements
    WorstStatus report.edges report.overallStatus := by
  obtain ⟨edges, -, -, overall⟩ := matchTxEconomics_fields sha256 actions movements
  simp only [edges, overall]
  exact rollupStatus_worst _

theorem reconcilePartition_covers (chainId fromBlock toBlock : Int)
    (keyed : KeyedByTx actionsByTx movementsByTx) :
    PartitionCovers sha256 actionsByTx movementsByTx
      (reconcilePartition sha256 chainId fromBlock toBlock actionsByTx movementsByTx) := by
  let txHashes := allTxHashes (actionsByTx.getD Dict.empty) (movementsByTx.getD Dict.empty)
  have recons : (reconcilePartition sha256 chainId fromBlock toBlock actionsByTx movementsByTx).txRecons =
      txHashes.map fun txHash => matchTxEconomics sha256 (actionsUnder actionsByTx txHash)
        (movementsUnder movementsByTx txHash) := rfl
  constructor
  · refine ⟨txHashes, allTxHashes_nodup _ _, mem_allTxHashes _ _, ?_⟩
    rw [recons, List.forall₂_map_right_iff, List.forall₂_same]
    intro txHash _
    refine ⟨rfl, fun nonempty => ?_⟩
    rw [matchTxEconomics_txHash sha256 _ _ nonempty]
    exact headTx_keyed txHash _ _ (keyed.actions txHash) (keyed.movements txHash) nonempty
  · exact sum_countStatuses _
  · refine (passRate_one_iff _).trans ?_
    rw [recons, List.forall_mem_map, List.forall_mem_map]
    exact forall₂_congr fun txHash _ => (matchTxEconomics_worst sha256 _ _).passes_iff
  · simp only [checkNoUnmatchedEconomicActions, decide_eq_true_eq, List.sum_eq_zero_iff_forall_eq_nat]
    rw [recons, List.map_map, List.forall_mem_map, List.forall_mem_map]
    exact forall₂_congr fun txHash _ => matchTxEconomics_unmatched sha256 _ _

theorem reconciliation_covers (actions : List EconomicAction) (movements : List TokenMovement)
    (oneTx : OneTx actions movements) (distinct : (actions.map EconomicAction.actionId).Nodup)
    (chainId fromBlock toBlock : Int) (keyed : KeyedByTx actionsByTx movementsByTx) :
    Covers actions movements (matchTxEconomics sha256 actions movements) ∧
      PartitionCovers sha256 actionsByTx movementsByTx
        (reconcilePartition sha256 chainId fromBlock toBlock actionsByTx movementsByTx) :=
  ⟨matchTxEconomics_covers sha256 actions movements oneTx distinct,
    reconcilePartition_covers sha256 actionsByTx movementsByTx chainId fromBlock toBlock keyed⟩

/-! ### A stake and a movement nobody expects -/

def stakesByTx : Option (Dict String (List EconomicAction)) :=
  some (Dict.empty.set "0x01" [stakeOf "a1" 5])

def movedByTx : Option (Dict String (List TokenMovement)) :=
  some (Dict.empty.set "0x01" [movementOf "m1" 5, movementOf "m2" 7])

theorem stakes_keyed : KeyedByTx stakesByTx movedByTx := by
  constructor
  · intro txHash action member
    by_cases same : txHash = "0x01"
    · simp only [actionsUnder, stakesByTx, Option.getD_some, Dict.get?_set, if_pos same,
        List.mem_singleton] at member
      rw [same, member]
      rfl
    · simp [actionsUnder, stakesByTx, Dict.get?_set, same] at member
  · intro txHash m member
    by_cases same : txHash = "0x01"
    · simp only [movementsUnder, movedByTx, Option.getD_some, Dict.get?_set, if_pos same,
        List.mem_cons, List.not_mem_nil, or_false] at member
      rcases member with rfl | rfl <;> rw [same] <;> rfl
    · simp [movementsUnder, movedByTx, Dict.get?_set, same] at member

theorem reconciliation_covers_stake :
    Covers [stakeOf "a1" 5] [movementOf "m1" 5, movementOf "m2" 7]
      (matchTxEconomics id [stakeOf "a1" 5] [movementOf "m1" 5, movementOf "m2" 7]) ∧
    PartitionCovers id stakesByTx movedByTx
      (reconcilePartition id 1 100 200 stakesByTx movedByTx) :=
  reconciliation_covers id stakesByTx movedByTx [stakeOf "a1" 5]
    [movementOf "m1" 5, movementOf "m2" 7]
    ⟨lower "0x01", by simp [stakeOf], by simp [movementOf]⟩ (by simp) 1 100 200 stakes_keyed

end EconomicLedger.Matching
