import EconomicLedger.Lib.Keyed
import EconomicLedger.Lib.Precedence
import EconomicLedger.Matching.Settlement
import Mathlib.Algebra.BigOperators.Group.List.Basic
import Mathlib.Data.List.ProdSigma
import Mathlib.Data.List.Sublists

/-!
# Reconciliation and the order of its inputs

The status of an action does not depend on the order of the movements, only which movements it
takes does. So a verdict depends on the order exactly when the number of movements taken does.
-/

namespace EconomicLedger.Matching
open Model Text

/-! ## What reordering leaves unchanged -/

theorem sumsTo_perm (target : Int) {s s' : List TokenMovement} (same : s.Perm s') :
    sumsTo target s = sumsTo target s' := by
  have total : amountOf s = amountOf s' := (same.map TokenMovement.amount).sum_eq
  rw [sumsTo, sumsTo, total]

section Reordered
variable {movements movements' : List TokenMovement} (reordered : movements'.Perm movements)
include reordered

theorem candidatesFor_perm (action : EconomicAction) :
    (candidatesFor action movements').Perm (candidatesFor action movements) :=
  reordered.filter _

theorem settle_isSome_perm (action : EconomicAction) :
    (settle action movements').isSome ↔ (settle action movements).isSome := by
  have candidates := candidatesFor_perm reordered action
  have half : ∀ {l l' : List TokenMovement}, l.Perm l' →
      (l.find? (·.amount = action.amountLink)).isSome →
      (l'.find? (·.amount = action.amountLink)).isSome := by
    intro l l' same found
    rw [List.find?_isSome] at found ⊢
    obtain ⟨m, member, equal⟩ := found
    exact ⟨m, same.mem_iff.mp member, equal⟩
  have subset := searchCombinations_isSome_perm (sumsTo action.amountLink)
    (fun _ _ => sumsTo_perm action.amountLink) 2
    (min maxSubsetSize (candidatesFor action movements).length - 1) candidates
  unfold settle
  simp only [candidates.length_eq]
  by_cases expected : action.kind ∈ notExpectedKinds
  · simp [expected]
  · simp only [if_neg expected]
    cases found : (candidatesFor action movements).find? (·.amount = action.amountLink) with
    | some m =>
        obtain ⟨m', found'⟩ := Option.isSome_iff_exists.mp (half candidates.symm (by simp [found]))
        simp [found']
    | none =>
        have none' : (candidatesFor action movements').find? (·.amount = action.amountLink) = none := by
          rw [← Option.not_isSome_iff_eq_none]
          intro found'
          simpa [found] using half candidates found'
        simp only [none']
        split_ifs
        · exact subset
        · exact Iff.rfl

theorem actionStatus_perm (action : EconomicAction) :
    actionStatus action movements' = actionStatus action movements := by
  have equal := ((candidatesFor_perm reordered action).filter
    (·.amount = action.amountLink)).length_eq
  have settled := settle_isSome_perm reordered action
  unfold actionStatus
  rw [equal]
  simp only [settled]

end Reordered

/-! ## What a report counts -/

theorem actionStatus_unmatched (action : EconomicAction) (movements : List TokenMovement)
    (unmatched : actionStatus action movements = .unmatched) : settle action movements = none := by
  unfold actionStatus at unmatched
  split_ifs at unmatched with expected settled
  · split at unmatched <;> cases unmatched
  · simpa using settled

theorem actionStatus_ne_unexpected (action : EconomicAction) (movements : List TokenMovement) :
    actionStatus action movements ≠ .unexpected := by
  unfold actionStatus
  split
  · decide
  · split
    · split <;> decide
    · decide
    · decide

variable (sha256 : Digest)

theorem actionEdges_status (actions : List EconomicAction) (movements : List TokenMovement)
    (status : Status) :
    status ∈ (actionEdges sha256 actions movements).map ActionMovementMatch.status ↔
      ∃ action ∈ actions, actionStatus action movements = status := by
  unfold actionEdges
  simp only [List.mem_map, List.mem_flatMap]
  constructor
  · rintro ⟨edge, ⟨action, member, own⟩, rfl⟩
    exact ⟨action, member,
      ((matchActionToMovements_matched sha256 action movements).status edge own).symm⟩
  · rintro ⟨action, member, rfl⟩
    obtain ⟨edge, own⟩ := List.exists_mem_of_ne_nil _
      (matchActionToMovements_ne_nil sha256 action movements)
    exact ⟨edge, ⟨action, member, own⟩,
      (matchActionToMovements_matched sha256 action movements).status edge own⟩

theorem unmatched_edges_action (action : EconomicAction) (movements : List TokenMovement) :
    ((matchActionToMovements sha256 action movements).filter (·.status = .unmatched)).length =
      if actionStatus action movements = .unmatched then 1 else 0 := by
  have matched := matchActionToMovements_matched sha256 action movements
  split_ifs with unmatched
  · have whole : (matchActionToMovements sha256 action movements).filter (·.status = .unmatched) =
        matchActionToMovements sha256 action movements := by
      rw [List.filter_eq_self]
      intro edge own
      simp [matched.status edge own, unmatched]
    have allocations := matched.allocations
    rw [actionStatus_unmatched action movements unmatched] at allocations
    simpa [whole] using congrArg List.length allocations
  · have none : (matchActionToMovements sha256 action movements).filter (·.status = .unmatched) =
        [] := by
      rw [List.filter_eq_nil_iff]
      intro edge own
      simp [matched.status edge own, unmatched]
    rw [none]
    rfl

theorem unexpectedEdges_status (movements : List (TokenMovement × Nat)) :
    (movements.map fun (m, i) => unexpectedEdge sha256 m i).map ActionMovementMatch.status =
      List.replicate movements.length .unexpected := by
  rw [List.map_map]
  exact List.map_const'

theorem txEdges_unmatched (actions : List EconomicAction) (movements : List TokenMovement) :
    ((txEdges sha256 actions movements).filter (·.status = .unmatched)).length =
      actions.countP fun action => actionStatus action movements = .unmatched := by
  have unexpected : ∀ edges : List ActionMovementMatch, ∀ n,
      edges.map ActionMovementMatch.status = List.replicate n .unexpected →
      edges.filter (·.status = .unmatched) = [] := by
    intro edges n constant
    rw [List.filter_eq_nil_iff]
    intro edge here
    have status := List.eq_of_mem_replicate (constant ▸ List.mem_map_of_mem here)
    simp [status]
  rw [txEdges, List.filter_append, unexpected _ _ (unexpectedEdges_status sha256 _),
    List.append_nil, actionEdges]
  clear unexpected
  induction actions with
  | nil => rfl
  | cons action rest ih =>
      rw [List.flatMap_cons, List.filter_append, List.length_append, ih, unmatched_edges_action,
        List.countP_cons, Nat.add_comm]
      simp

theorem txEdges_status (actions : List EconomicAction) (movements : List TokenMovement)
    (status : Status) :
    status ∈ (txEdges sha256 actions movements).map ActionMovementMatch.status ↔
      (∃ action ∈ actions, actionStatus action movements = status) ∨
      (status = .unexpected ∧ 0 < (unmatchedMovements sha256 actions movements).length) := by
  rw [txEdges, List.map_append, List.mem_append, actionEdges_status]
  apply or_congr_right
  rw [unexpectedEdges_status, List.mem_replicate, Nat.pos_iff_ne_zero]
  exact and_comm

theorem rollupStatus_congr (edges edges' : List ActionMovementMatch)
    (same : ∀ status, status ∈ edges.map ActionMovementMatch.status ↔
      status ∈ edges'.map ActionMovementMatch.status) : rollupStatus edges = rollupStatus edges' := by
  unfold rollupStatus
  simp only [same]

/-! ## Coverage -/

def OneTx (actions : List EconomicAction) (movements : List TokenMovement) : Prop :=
  ∃ txHash, (∀ action ∈ actions, lower action.txHash = txHash) ∧
    ∀ m ∈ movements, lower m.txHash = txHash

/-- How many movements the actions take. -/
def coverage (actions : List EconomicAction) (movements : List TokenMovement) : Nat :=
  movements.countP fun m => ∃ action ∈ actions, Takes action movements m

theorem headTx_eq (actions : List EconomicAction) (movements : List TokenMovement)
    (oneTx : OneTx actions movements) (m : TokenMovement) (member : m ∈ movements) :
    lower m.txHash = headTx actions movements := by
  obtain ⟨txHash, own, moved⟩ := oneTx
  rw [moved m member]
  cases actions with
  | cons action rest => exact (own action List.mem_cons_self).symm
  | nil =>
      cases movements with
      | nil => cases member
      | cons first rest => exact (moved first List.mem_cons_self).symm

theorem matchedId_iff (actions : List EconomicAction) (movements : List TokenMovement) (movementId : String) :
    movementId ∈ (actionEdges sha256 actions movements).filterMap ActionMovementMatch.movementId ↔
      ∃ action ∈ actions, ∃ m, Takes action movements m ∧ m.movementId = movementId := by
  have perAction (action : EconomicAction) :
      some movementId ∈ (matchActionToMovements sha256 action movements).map
        ActionMovementMatch.movementId ↔ ∃ m, Takes action movements m ∧ m.movementId = movementId := by
    have names : (matchActionToMovements sha256 action movements).map ActionMovementMatch.movementId =
        ((matchActionToMovements sha256 action movements).map allocation).map Prod.fst := by
      rw [List.map_map]
      rfl
    simp only [names, (matchActionToMovements_matched sha256 action movements).allocations, takes_iff]
    cases settle action movements with
    | none => simp
    | some subset => simp
  simp only [← perAction, actionEdges, List.mem_filterMap, List.mem_flatMap, List.mem_map]
  constructor
  · rintro ⟨edge, ⟨action, isAction, own⟩, named⟩
    exact ⟨action, isAction, edge, own, named⟩
  · rintro ⟨action, isAction, edge, own, named⟩
    exact ⟨edge, ⟨action, isAction, own⟩, named⟩

theorem Takes.mem {action : EconomicAction} {movements : List TokenMovement} {m : TokenMovement}
    (takes : Takes action movements m) : m ∈ movements := by
  obtain ⟨subset, settled, inside⟩ := takes
  exact settled.sublist.subset inside

theorem movementId_matched_iff (actions : List EconomicAction) (movements : List TokenMovement)
    (distinct : (movements.map TokenMovement.movementId).Nodup) (m : TokenMovement)
    (member : m ∈ movements) :
    m.movementId ∈ (actionEdges sha256 actions movements).filterMap ActionMovementMatch.movementId ↔
      ∃ action ∈ actions, Takes action movements m := by
  rw [matchedId_iff]
  constructor
  · rintro ⟨action, isAction, m', takes, same⟩
    exact ⟨action, isAction, List.inj_on_of_nodup_map distinct takes.mem member same ▸ takes⟩
  · rintro ⟨action, isAction, takes⟩
    exact ⟨action, isAction, m, takes, rfl⟩

theorem unmatchedMovements_kept (actions : List EconomicAction) (movements : List TokenMovement) :
    (unmatchedMovements sha256 actions movements).map Prod.fst = movements.filter fun m =>
      lower m.txHash = headTx actions movements &&
        !(m.movementId ∈ (actionEdges sha256 actions movements).filterMap ActionMovementMatch.movementId) := by
  let unexpected : TokenMovement → Bool := fun m => lower m.txHash = headTx actions movements &&
    !(m.movementId ∈ (actionEdges sha256 actions movements).filterMap ActionMovementMatch.movementId)
  calc (unmatchedMovements sha256 actions movements).map Prod.fst
      = (movements.zipIdx.map Prod.fst).filter unexpected := by
        rw [List.filter_map]
        rfl
    _ = movements.filter unexpected := by rw [List.zipIdx_map_fst]

theorem unmatchedMovements_fst (actions : List EconomicAction) (movements : List TokenMovement)
    (oneTx : OneTx actions movements) :
    (unmatchedMovements sha256 actions movements).map Prod.fst = movements.filter fun m =>
      m.movementId ∉ (actionEdges sha256 actions movements).filterMap ActionMovementMatch.movementId := by
  rw [unmatchedMovements_kept]
  apply List.filter_congr
  intro m member
  simp only [headTx_eq actions movements oneTx m member, decide_true, Bool.true_and, decide_not]

theorem unmatchedMovements_length (actions : List EconomicAction) (movements : List TokenMovement)
    (oneTx : OneTx actions movements) (distinct : (movements.map TokenMovement.movementId).Nodup) :
    (unmatchedMovements sha256 actions movements).length + coverage actions movements =
      movements.length := by
  have leftOver : (unmatchedMovements sha256 actions movements).length = movements.countP
      fun m => ¬ decide (∃ action ∈ actions, Takes action movements m) = true := by
    rw [← List.length_map (f := Prod.fst), unmatchedMovements_fst sha256 actions movements oneTx,
      ← List.countP_eq_length_filter]
    apply List.countP_congr
    intro m member
    simp only [decide_eq_true_eq]
    exact not_congr (movementId_matched_iff sha256 actions movements distinct m member)
  rw [leftOver, coverage, Nat.add_comm]
  exact (List.length_eq_countP_add_countP _).symm

theorem coverage_perm_actions {actions actions' : List EconomicAction}
    (reordered : actions'.Perm actions) (movements : List TokenMovement) :
    coverage actions' movements = coverage actions movements := by
  apply List.countP_congr
  intro m _
  simp only [decide_eq_true_eq, reordered.mem_iff]

/-! ## Verdicts -/

def verdict (report : TxReconciliation) : Status × Nat × Nat :=
  (report.overallStatus, report.unmatchedActions, report.unexpectedMovements)

def OrderIndependent (actions : List EconomicAction) (movements : List TokenMovement) : Prop :=
  ∀ actions' movements', actions'.Perm actions → movements'.Perm movements →
    verdict (matchTxEconomics sha256 actions' movements') =
      verdict (matchTxEconomics sha256 actions movements)

theorem verdict_eq_iff (actions actions' : List EconomicAction)
    (movements movements' : List TokenMovement) (reorderedActions : actions'.Perm actions)
    (reordered : movements'.Perm movements) (oneTx : OneTx actions movements)
    (distinct : (movements.map TokenMovement.movementId).Nodup) :
    verdict (matchTxEconomics sha256 actions' movements') =
      verdict (matchTxEconomics sha256 actions movements) ↔
      coverage actions movements' = coverage actions movements := by
  have oneTx' : OneTx actions' movements' := by
    obtain ⟨txHash, own, moved⟩ := oneTx
    exact ⟨txHash, fun action member => own action (reorderedActions.mem_iff.mp member),
      fun m member => moved m (reordered.mem_iff.mp member)⟩
  have distinct' : (movements'.map TokenMovement.movementId).Nodup :=
    (reordered.map _).nodup_iff.mpr distinct
  obtain ⟨-, unmatched, unexpected, status⟩ := matchTxEconomics_fields sha256 actions movements
  obtain ⟨-, unmatched', unexpected', status'⟩ := matchTxEconomics_fields sha256 actions' movements'
  have total := unmatchedMovements_length sha256 actions movements oneTx distinct
  have total' := unmatchedMovements_length sha256 actions' movements' oneTx' distinct'
  rw [coverage_perm_actions reorderedActions, reordered.length_eq] at total'
  have counts : (unmatchedMovements sha256 actions' movements').length =
      (unmatchedMovements sha256 actions movements).length ↔
      coverage actions movements' = coverage actions movements := by omega
  simp only [verdict, Prod.mk.injEq, status, status', unmatched, unmatched', unexpected,
    unexpected', counts]
  constructor
  · exact fun same => same.2.2
  · intro covered
    refine ⟨rollupStatus_congr _ _ fun s => ?_, ?_, covered⟩
    · simp only [txEdges_status, counts.mpr covered, actionStatus_perm reordered,
        reorderedActions.mem_iff]
    · simp only [txEdges_unmatched, actionStatus_perm reordered]
      exact reorderedActions.countP_eq _

/-! ## Choices -/

/-- A set of movements that is the settlement of an action in some order of the movements. -/
inductive Admissible (action : EconomicAction) (movements : List TokenMovement) :
    List TokenMovement → Prop
  | exact {m : TokenMovement} (expected : action.kind ∉ notExpectedKinds)
      (candidate : m ∈ candidatesFor action movements) (equal : m.amount = action.amountLink) :
      Admissible action movements [m]
  | batch {subset : List TokenMovement} (expected : action.kind ∉ notExpectedKinds)
      (none : ∀ m ∈ candidatesFor action movements, m.amount ≠ action.amountLink)
      (positive : 0 < action.amountLink)
      (candidates : subset.Subperm (candidatesFor action movements))
      (sums : sumsTo action.amountLink subset = true)
      (sized : 2 ≤ subset.length ∧ subset.length ≤ maxSubsetSize)
      (smallest : ∀ t : List TokenMovement, t.Subperm (candidatesFor action movements) →
        2 ≤ t.length → t.length < subset.length → sumsTo action.amountLink t = false) :
      Admissible action movements subset

/-- One admissible set for every action that has any, the same for equal amounts. -/
structure Choice (actions : List EconomicAction) (movements : List TokenMovement)
    (choose : EconomicAction → List TokenMovement) : Prop where
  admissible : ∀ action ∈ actions, choose action ≠ [] → Admissible action movements (choose action)
  complete : ∀ action ∈ actions, choose action = [] → ∀ subset, ¬ Admissible action movements subset
  uniform : ∀ action ∈ actions, ∀ action' ∈ actions, action.kind ∉ notExpectedKinds →
    action'.kind ∉ notExpectedKinds → action.amountLink = action'.amountLink →
    choose action = choose action'

def chosen (actions : List EconomicAction) (movements : List TokenMovement)
    (choose : EconomicAction → List TokenMovement) : Nat :=
  movements.countP fun m => ∃ action ∈ actions, m ∈ choose action

/-- However the actions choose, they take equally many movements. -/
def ChoicesCoverAlike (actions : List EconomicAction) (movements : List TokenMovement) : Prop :=
  ∀ choose choose', Choice actions movements choose → Choice actions movements choose' →
    chosen actions movements choose = chosen actions movements choose'

/-- Some action could have taken `left` where it takes `taken`. -/
def Leaves (actions : List EconomicAction) (movements : List TokenMovement)
    (choose : EconomicAction → List TokenMovement) (taken left : List TokenMovement) : Prop :=
  ∃ action ∈ actions, taken = choose action ∧ Admissible action movements left ∧ ∃ m ∈ left, m ∉ taken

/-- Of any sets that the actions leave, one is left for a set with a movement that is not in it, and
that no other of the sets has unless the set taken instead has it too. -/
def Consistent (actions : List EconomicAction) (movements : List TokenMovement)
    (choose : EconomicAction → List TokenMovement) : Prop :=
  Orderable (Leaves actions movements choose)

def ConsistentChoicesCoverAlike (actions : List EconomicAction) (movements : List TokenMovement) :
    Prop :=
  ∀ choose choose', Choice actions movements choose → Choice actions movements choose' →
    Consistent actions movements choose → Consistent actions movements choose' →
    chosen actions movements choose = chosen actions movements choose'

theorem Settlement.admissible {action : EconomicAction} {movements movements' : List TokenMovement}
    (reordered : movements'.Perm movements) {subset : List TokenMovement}
    (settled : Settlement action movements' subset) : Admissible action movements subset := by
  have candidates := candidatesFor_perm reordered action
  cases settled with
  | exact expected split equal first =>
      exact Admissible.exact expected (candidates.mem_iff.mp (by rw [split]; simp)) equal
  | batch expected none positive smallest =>
      have sized := smallest.sized
      refine Admissible.batch expected (fun m member => none m (candidates.mem_iff.mpr member))
        positive (smallest.sublist.subperm.trans candidates.subperm) smallest.holds
        ⟨sized.1, by omega⟩ ?_
      intro t sub large small
      obtain ⟨t', same, sub'⟩ := sub.trans candidates.symm.subperm
      rw [← sumsTo_perm _ same]
      exact smallest.smallest t' sub' (same.length_eq ▸ large) (same.length_eq ▸ small)

theorem Admissible.settled {action : EconomicAction} {movements subset : List TokenMovement}
    (admissible : Admissible action movements subset) : (settle action movements).isSome = true := by
  cases admissible with
  | exact expected candidate equal =>
      have found : ((candidatesFor action movements).find? (·.amount = action.amountLink)).isSome :=
        List.find?_isSome.mpr ⟨_, candidate, by simpa using equal⟩
      obtain ⟨m, found⟩ := Option.isSome_iff_exists.mp found
      simp [settle, expected, found]
  | batch expected none positive candidates sums sized smallest =>
      have missing : (candidatesFor action movements).find? (·.amount = action.amountLink) = .none := by
        simpa using none
      obtain ⟨t, same, sub⟩ := candidates
      have := sub.length_le
      have := same.length_eq
      simp only [settle, if_neg expected, missing, if_pos positive, searchCombinations_isSome_iff]
      exact ⟨t, sub, by omega, by omega, (sumsTo_perm _ same).trans sums⟩

theorem choice_of_order (actions : List EconomicAction) (movements movements' : List TokenMovement)
    (reordered : movements'.Perm movements) (oneTx : OneTx actions movements) :
    Choice actions movements fun action => (settle action movements').getD [] := by
  constructor
  · intro action _ nonempty
    cases settled : settle action movements' with
    | none => simp [settled] at nonempty
    | some subset =>
        exact ((settle_eq_some_iff action movements' subset).mp settled).admissible reordered
  · intro action _ empty subset admissible
    obtain ⟨subset', settled⟩ := Option.isSome_iff_exists.mp
      ((settle_isSome_perm reordered action).mpr admissible.settled)
    rw [settled] at empty
    exact ((settle_eq_some_iff action movements' subset').mp settled).nonempty empty
  · intro action member action' member' expected expected' equal
    obtain ⟨txHash, own, -⟩ := oneTx
    have candidates : candidatesFor action movements' = candidatesFor action' movements' := by
      simp only [candidatesFor, own action member, own action' member']
    simp only [settle, if_neg expected, if_neg expected', candidates, equal]

/-! ## Choices and orders -/

theorem Admissible.subperm {action : EconomicAction} {movements subset : List TokenMovement}
    (admissible : Admissible action movements subset) : subset.Subperm movements := by
  have candidates : (candidatesFor action movements).Sublist movements := List.filter_sublist
  cases admissible with
  | exact expected candidate equal =>
      exact (List.singleton_sublist.mpr (candidates.subset candidate)).subperm
  | batch expected none positive inside sums sized smallest => exact inside.trans candidates.subperm

theorem Admissible.perm {action : EconomicAction} {movements subset subset' : List TokenMovement}
    (admissible : Admissible action movements subset) (same : subset'.Perm subset) :
    Admissible action movements subset' := by
  cases admissible with
  | exact expected candidate equal =>
      obtain rfl := List.perm_singleton.mp same
      exact Admissible.exact expected candidate equal
  | batch expected none positive inside sums sized smallest =>
      refine Admissible.batch expected none positive (same.subperm.trans inside)
        ((sumsTo_perm _ same).trans sums) (same.length_eq ▸ sized) ?_
      rw [same.length_eq]
      exact smallest

/-- A settlement comes before every other admissible set in the order of the movements. -/
theorem Settlement.precedes {action : EconomicAction} {movements movements' : List TokenMovement}
    (reordered : movements'.Perm movements) (distinct : movements'.Nodup)
    {subset other : List TokenMovement} (settled : Settlement action movements' subset)
    (admissible : Admissible action movements other) :
    (∀ m, m ∈ other ↔ m ∈ subset) ∨ Precedes movements' subset other := by
  have candidates := candidatesFor_perm reordered action
  have kept : (candidatesFor action movements').Sublist movements' := List.filter_sublist
  cases settled with
  | @exact before after m expected split equal first =>
      cases admissible with
      | @exact m' _ candidate' equal' =>
          have member : m' ∈ before ++ m :: after := split ▸ candidates.mem_iff.mpr candidate'
          rcases List.mem_append.mp member with early | member
          · exact absurd equal' (first m' early)
          · rcases List.mem_cons.mp member with rfl | late
            · exact Or.inl fun _ => Iff.rfl
            · have pair : [m, m'].Sublist (candidatesFor action movements') := by
                rw [split]
                exact ((List.singleton_sublist.mpr late).cons_cons m).trans
                  (List.sublist_append_right before _)
              have ne : m ≠ m' := by
                have := pair.nodup (kept.nodup distinct)
                simpa using this
              refine Or.inr ⟨m, List.mem_singleton_self m, by simpa using ne, fun y right _ => ?_⟩
              obtain rfl := List.mem_singleton.mp right
              exact pair.trans kept
      | batch _ none _ _ _ _ _ =>
          exact absurd equal (none m (candidates.mem_iff.mp (split ▸ by simp)))
  | batch expected none positive smallest =>
      cases admissible with
      | exact _ candidate equal => exact absurd equal (none _ (candidates.mem_iff.mpr candidate))
      | batch _ _ _ inside sums sized least =>
          obtain ⟨t, same, sub⟩ := inside.trans candidates.symm.subperm
          have sums' : sumsTo action.amountLink t = true := (sumsTo_perm _ same).trans sums
          have size : t.length = subset.length := by
            rw [same.length_eq]
            refine le_antisymm (not_lt.mp fun less => ?_) (not_lt.mp fun less => ?_)
            · have := least subset (smallest.sublist.subperm.trans candidates.subperm)
                smallest.sized.1 less
              simp [smallest.holds] at this
            · have := smallest.smallest t sub (same.length_eq ▸ sized.1) (same.length_eq ▸ less)
              simp [sums'] at this
          rcases smallest.precedes (kept.nodup distinct) sub size sums' with rfl | earlier
          · exact Or.inl fun m => same.mem_iff.symm
          · exact Or.inr ((earlier.mono kept).congr (fun _ => Iff.rfl) fun _ => same.mem_iff)

theorem consistent_of_order (actions : List EconomicAction) (movements movements' : List TokenMovement)
    (reordered : movements'.Perm movements) (distinct : movements.Nodup) :
    Consistent actions movements fun action => (settle action movements').getD [] := by
  have distinct' : movements'.Nodup := reordered.nodup_iff.mpr distinct
  have settles : ∀ action subset, Admissible action movements subset →
      Settlement action movements' ((settle action movements').getD []) := by
    intro action subset admissible
    obtain ⟨own, settled⟩ := Option.isSome_iff_exists.mp
      ((settle_isSome_perm reordered action).mpr admissible.settled)
    rw [settled]
    exact (settle_eq_some_iff action movements' own).mp settled
  refine orderable_of_precedes distinct' ?_ ?_
  · rintro _ left ⟨action, -, rfl, admissible, -⟩
    exact (settles action left admissible).sublist.subset
  · rintro _ left ⟨action, -, rfl, admissible, m, member, missing⟩
    rcases (settles action left admissible).precedes reordered distinct' admissible with same | earlier
    · exact absurd ((same m).mp member) missing
    · exact earlier

/-- The movements can be listed so that each chosen set comes before what is left for it. -/
theorem Consistent.listed {actions : List EconomicAction} {movements : List TokenMovement}
    {choose : EconomicAction → List TokenMovement} (consistent : Consistent actions movements choose)
    (choice : Choice actions movements choose) :
    ∃ movements' : List TokenMovement, movements'.Perm movements ∧
      ∀ taken left, Leaves actions movements choose taken left → Precedes movements' taken left := by
  classical
  have inside : ∀ taken left, Leaves actions movements choose taken left →
      ∀ m, m ∈ taken ∨ m ∈ left → m ∈ movements := by
    rintro _ left ⟨action, member, rfl, admissible, -⟩ m (own | other)
    · exact (choice.admissible action member (List.ne_nil_of_mem own)).subperm.subset own
    · exact admissible.subperm.subset other
  let pairs := ((actions.map choose).product movements.sublists).filter fun pair =>
    Leaves actions movements choose pair.1 pair.2
  have leaves : ∀ pair ∈ pairs, Leaves actions movements choose pair.1 pair.2 :=
    fun pair member => by simpa using List.of_mem_filter member
  obtain ⟨movements', reordered, ordered⟩ := exists_order pairs movements
    (fun some nonempty within => consistent some nonempty fun pair member =>
      leaves pair (within pair member))
    (fun pair member m differs => inside _ _ (leaves pair member) m (by tauto))
  refine ⟨movements', reordered, ?_⟩
  rintro _ left ⟨action, member, rfl, admissible, m, here, missing⟩
  obtain ⟨t, same, sub⟩ := admissible.subperm
  have kept : (choose action, t) ∈ pairs := List.mem_filter.mpr
    ⟨List.mem_product.mpr ⟨List.mem_map_of_mem member, List.mem_sublists.mpr sub⟩,
      decide_eq_true ⟨action, member, rfl, admissible.perm same, m, same.mem_iff.mpr here, missing⟩⟩
  exact (ordered _ kept).congr (fun _ => Iff.rfl) fun _ => same.mem_iff

/-- Every consistent choice is what the actions settle on in some order of the movements. -/
theorem order_of_consistent (actions : List EconomicAction) (movements : List TokenMovement)
    (distinct : movements.Nodup) (choose : EconomicAction → List TokenMovement)
    (choice : Choice actions movements choose) (consistent : Consistent actions movements choose) :
    ∃ movements' : List TokenMovement, movements'.Perm movements ∧
      ∀ action ∈ actions, ∀ m, Takes action movements' m ↔ m ∈ choose action := by
  obtain ⟨movements', reordered, ordered⟩ := consistent.listed choice
  refine ⟨movements', reordered, fun action member m => ?_⟩
  have distinct' : movements'.Nodup := reordered.nodup_iff.mpr distinct
  rw [takes_iff]
  cases settled : settle action movements' with
  | none =>
      have empty : choose action = [] := by
        by_contra nonempty
        have found := (settle_isSome_perm reordered action).mpr
          (choice.admissible action member nonempty).settled
        simp [settled] at found
      simp [empty]
  | some subset =>
      have settlement := (settle_eq_some_iff action movements' subset).mp settled
      have own := settlement.admissible reordered
      have admissible := choice.admissible action member fun empty =>
        choice.complete action member empty subset own
      have compared := settlement.precedes reordered distinct' admissible
      -- the settlement cannot have been left: the order puts the chosen set before what is left
      have taken : ∀ m ∈ subset, m ∈ choose action := by
        intro m here
        by_contra missing
        have before := ordered _ _ ⟨action, member, rfl, own, m, here, missing⟩
        rcases compared with equal | after
        · exact missing ((equal m).mpr here)
        · exact before.asymm distinct' after
      rcases compared with equal | ⟨x, here, missing, -⟩
      · exact (equal m).symm
      · exact absurd (taken x here) missing

theorem coverage_eq_chosen (actions : List EconomicAction) {movements movements' : List TokenMovement}
    (reordered : movements'.Perm movements) (choose : EconomicAction → List TokenMovement)
    (same : ∀ action ∈ actions, ∀ m, Takes action movements' m ↔ m ∈ choose action) :
    coverage actions movements' = chosen actions movements choose := by
  rw [coverage, chosen, reordered.countP_eq]
  apply List.countP_congr
  intro m _
  simp only [decide_eq_true_eq]
  exact exists_congr fun action => and_congr_right fun member => same action member m

/-- The verdict ignores the order exactly when all consistent choices take equally many movements, and
so whenever all choices do. -/
theorem verdict_orderIndependent_iff (actions : List EconomicAction)
    (movements : List TokenMovement) (oneTx : OneTx actions movements)
    (distinct : (movements.map TokenMovement.movementId).Nodup) :
    (OrderIndependent sha256 actions movements ↔ ConsistentChoicesCoverAlike actions movements) ∧
    (ChoicesCoverAlike actions movements → OrderIndependent sha256 actions movements) := by
  have apart : movements.Nodup := distinct.of_map
  have settled (movements' : List TokenMovement) (reordered : movements'.Perm movements) :
      coverage actions movements' =
        chosen actions movements fun action => (settle action movements').getD [] :=
    coverage_eq_chosen actions reordered _ fun action _ m => takes_iff action movements' m
  have exact : OrderIndependent sha256 actions movements ↔
      ConsistentChoicesCoverAlike actions movements := by
    constructor
    · intro independent
      have own : ∀ choose, Choice actions movements choose → Consistent actions movements choose →
          chosen actions movements choose = coverage actions movements := by
        intro choose choice consistent
        obtain ⟨movements', reordered, same⟩ :=
          order_of_consistent actions movements apart choose choice consistent
        rw [← coverage_eq_chosen actions reordered choose same]
        exact (verdict_eq_iff sha256 actions actions movements movements' (List.Perm.refl _) reordered
          oneTx distinct).mp (independent actions movements' (List.Perm.refl _) reordered)
      intro choose choose' choice choice' consistent consistent'
      rw [own choose choice consistent, own choose' choice' consistent']
    · intro alike actions' movements' reorderedActions reordered
      rw [verdict_eq_iff sha256 actions actions' movements movements' reorderedActions reordered
        oneTx distinct, settled movements' reordered, settled movements (List.Perm.refl _)]
      exact alike _ _ (choice_of_order actions movements movements' reordered oneTx)
        (choice_of_order actions movements movements (List.Perm.refl _) oneTx)
        (consistent_of_order actions movements movements' reordered apart)
        (consistent_of_order actions movements movements (List.Perm.refl _) apart)
  exact ⟨exact, fun alike => exact.mpr fun choose choose' choice choice' _ _ =>
    alike choose choose' choice choice'⟩

theorem verdict_orderIndependent_iff_batch :
    ChoicesCoverAlike [stakeOf "a1" 8] [movementOf "m1" 5, movementOf "m2" 3] ∧
    OrderIndependent id [stakeOf "a1" 8] [movementOf "m1" 5, movementOf "m2" 3] := by
  have candidates : candidatesFor (stakeOf "a1" 8) [movementOf "m1" 5, movementOf "m2" 3] =
      [movementOf "m1" 5, movementOf "m2" 3] := by decide
  have whole : Admissible (stakeOf "a1" 8) [movementOf "m1" 5, movementOf "m2" 3]
      [movementOf "m1" 5, movementOf "m2" 3] := by
    refine Admissible.batch (by decide) ?_ (by decide) ?_ (by decide) (by decide) ?_
    · rw [candidates]
      decide
    · rw [candidates]
    · intro t _ large small
      simp only [List.length_cons, List.length_nil] at small
      omega
  have only : ∀ subset, Admissible (stakeOf "a1" 8) [movementOf "m1" 5, movementOf "m2" 3] subset →
      subset.Perm [movementOf "m1" 5, movementOf "m2" 3] := by
    intro subset admissible
    cases admissible with
    | exact expected candidate equal =>
        rw [candidates] at candidate
        simp only [List.mem_cons, List.not_mem_nil, or_false] at candidate
        rcases candidate with rfl | rfl <;> exact absurd equal (by decide)
    | batch expected none positive inside sums sized smallest =>
        exact (candidates ▸ inside).perm_of_length_le sized.1
  have all : ∀ choose, Choice [stakeOf "a1" 8] [movementOf "m1" 5, movementOf "m2" 3] choose →
      chosen [stakeOf "a1" 8] [movementOf "m1" 5, movementOf "m2" 3] choose = 2 := by
    intro choose choice
    have taken : choose (stakeOf "a1" 8) ≠ [] := fun empty =>
      choice.complete _ (List.mem_singleton_self _) empty _ whole
    have same := only _ (choice.admissible _ (List.mem_singleton_self _) taken)
    exact List.countP_eq_length.mpr fun m member => by simpa [same.mem_iff] using member
  have alike : ChoicesCoverAlike [stakeOf "a1" 8] [movementOf "m1" 5, movementOf "m2" 3] :=
    fun choose choose' choice choice' => (all choose choice).trans (all choose' choice').symm
  exact ⟨alike, (verdict_orderIndependent_iff id _ _ ⟨"0x01", by decide⟩ (by decide)).2 alike⟩

/-- One order makes the batch of 8 take what the other two stakes take, the other leaves nothing. -/
theorem batch_verdict_depends_on_order :
    ([stakeOf "a1" 5, stakeOf "a2" 8, stakeOf "a3" 3].map EconomicAction.actionId).Nodup ∧
    ([movementOf "m1" 5, movementOf "m2" 3, movementOf "m3" 4, movementOf "m4" 4].map
      TokenMovement.movementId).Nodup ∧
    ¬ OrderIndependent id [stakeOf "a1" 5, stakeOf "a2" 8, stakeOf "a3" 3]
      [movementOf "m1" 5, movementOf "m2" 3, movementOf "m3" 4, movementOf "m4" 4] := by
  refine ⟨by decide, by decide, fun independent => ?_⟩
  have same := independent _ [movementOf "m3" 4, movementOf "m4" 4, movementOf "m1" 5,
    movementOf "m2" 3] (List.Perm.refl _) (by decide)
  revert same
  decide

end EconomicLedger.Matching
